import Turnstile.Proofs.Cache.Bench
import Turnstile.Proofs.Json.RoundTrip
import Turnstile.Proofs.Shop.Run
import Turnstile.Proofs.Store.Sparing

/-! # What was loaded is kept

A read through a cache that calls its loader keeps what that came to (`Loads.find?_reading`).
Whatever goes on meanwhile, the key holds it as long as no command that reaches the store writes the
key: programs may run, commands may fail, time may go by (`Bench.Meanwhile`). The shop at work is a
case of that (`Shop.meanwhile_after`); a read through the cache that finds its value is one of the
programs that may run, and so is one that calls its loader but keeps nothing.

So until the lifetime is over every read through the cache that reaches the store answers what was
loaded, and calls no loader, and the first one after it calls its loader again
(`load_not_repeated`). The codec has to read back what it wrote (`Codec.Faithful`), and those of the
shop do (`Shop.faithful_make`). -/

namespace Turnstile

open Turnstile.Store Turnstile.Time

theorem Shop.meanwhile_after {β : Type} {s : Shop} {steps : List (Step β)} {key : String}
    {b : Bench Entries}
    (h : ∀ x ∈ s.moments Memory.backend steps b, x.bench.Spares key (x.operation.program s)) :
    Bench.Meanwhile key b (s.after Memory.backend steps b) := by
  revert h
  refine moments_after_induction (P := fun xs b' =>
    (∀ x ∈ xs, x.bench.Spares key (x.operation.program s)) → Bench.Meanwhile key b b')
    (fun _ => .start) (fun _ _ d ih h => .advance d (ih h))
    (fun _ _ kind failure ih h => .order kind failure (ih h)) ?_
  intro xs b' o _ ih h
  rw [List.forall_mem_append, List.forall_mem_singleton] at h
  exact .run _ (ih h.1) h.2

/-! ### Codecs -/

/-- What the codec writes it reads back. -/
def Codec.Faithful {α : Type} (codec : Codec α) : Prop :=
  ∀ v text, codec.encode v = .ok text → codec.decode text = .ok v

theorem Codec.Lawful.faithful {α : Type} {codec : Codec α} (h : codec.Lawful) : codec.Faithful := by
  intro v text hencode
  obtain ⟨text', hencode', hdecode⟩ := h v
  rw [← Except.ok.inj (hencode'.symm.trans hencode)]
  exact hdecode

theorem Stock.faithful_codec : (Codec.json Stock).Faithful := by
  intro s text hencode
  obtain ⟨rfl, rfl⟩ := encode_eq_ok_iff.mp hencode
  exact decode_empty

/-- All caches of the shop read back what they wrote. -/
structure Shop.Faithful (s : Shop) : Prop where
  products : s.products.codec.Faithful
  curations : s.curations.codec.Faithful
  stocks : s.stocks.codec.Faithful
  members : s.members.codec.Faithful
  notes : s.notes.codec.Faithful

theorem Shop.faithful_make (t : Lifetimes) (notes : String) : (make t notes).Faithful where
  products := (Codec.lawful_json ProductDetail).faithful
  curations := (Codec.lawful_json CardPage).faithful
  stocks := Stock.faithful_codec
  members := Codec.lawful_raw.faithful
  notes := (Codec.lawful_json String).faithful

/-! ### Loading -/

namespace Cache

variable {κ α ε : Type} {c : Cache κ α} {k : κ} {v : α} {text : String} {b b' : Bench Entries}

/-- A read through the cache, with a loader that comes to this. -/
def reading (c : Cache κ α) (k : κ) (loaded : Except ε (Option α)) (b : Bench Entries) :
    Except ε (Option α) × Bench Entries :=
  b.run Memory.backend (c.readThrough k (Program.call loaded))

/-- The read calls its loader, which comes to the value, and the value can be written. -/
structure Loads (ε : Type) (c : Cache κ α) (k : κ) (v : α) (b : Bench Entries) : Prop where
  called : (c.reading k (.ok (some v) : Except ε (Option α)) b).2.calls = b.calls + 1
  encodes : ∃ text, c.codec.encode v = .ok text
  ready : b.failing .set = none

theorem Loads.find?_reading (h : c.Loads ε k v b) : ∃ text, c.codec.encode v = .ok text ∧
    (c.reading k (.ok (some v) : Except ε (Option α)) b).2.store.find? (c.keyFor k) =
      some ⟨text, some (b.now.after c.lifetime)⟩ := by
  obtain ⟨text, hencode⟩ := h.encodes
  refine ⟨text, hencode, ?_⟩
  cases hfound : c.found? k b with
  | some u =>
    have hcalls : (c.reading k (.ok (some v) : Except ε (Option α)) b).2.calls = b.calls :=
      (run_readThrough_hit c k b hfound _).2.2
    have hcalled := h.called
    omega
  | none =>
    obtain ⟨-, -, hstore⟩ :=
      run_readThrough_miss c k b hfound (.ok (some v) : Except ε (Option α))
    rw [reading, hstore]
    dsimp only
    rw [(run_set c k b v none).2, h.ready, hencode]
    dsimp only
    rw [Entries.find?_put, if_pos rfl, Option.getD_none]

theorem found?_of_find? {t : Instant} (h : b.store.find? (c.keyFor k) = some ⟨text, some t⟩) :
    c.found? k b =
      if b.failing .get = none ∧ b.now < t then (c.codec.decode text).toOption else none := by
  unfold found?
  cases b.failing .get with
  | some failure => exact (if_neg fun hready => Option.some_ne_none _ hready.1).symm
  | none =>
    rw [Entries.live?, h]
    by_cases hlt : b.now < t
    · rw [if_pos ⟨rfl, hlt⟩]
      simp [Option.filter, Entry.isLive, hlt]
    · rw [if_neg fun hready => hlt hready.2]
      simp [Option.filter, Entry.isLive, hlt]

/-- **A load is not repeated.** If a read through the cache calls its loader, and what that comes to
is written, then, as long as nothing else is written under the key, every read through the cache
that reaches the store answers it without a loader until the lifetime is over, and the next one
after that calls its loader again. A loader that fails or finds nothing leaves the store as it is.
It takes a codec that reads back what it wrote, as those of the shop do. -/
theorem load_not_repeated (c : Cache κ α) (k : κ) :
    (c.codec.Faithful → ∀ (v : α) (b b' : Bench Entries), c.Loads ε k v b →
      Bench.Meanwhile (c.keyFor k) (c.reading k (.ok (some v) : Except ε (Option α)) b).2 b' →
        (b'.failing .get = none → b'.now < b.now.after c.lifetime →
          ∀ load : Program (Except ε (Option α)),
            (b'.run Memory.backend (c.readThrough k load)).1 = .ok (some v) ∧
              (b'.run Memory.backend (c.readThrough k load)).2.calls = b'.calls) ∧
        (b.now.after c.lifetime ≤ b'.now → ∀ loaded : Except ε (Option α),
          (c.reading k loaded b').1 = loaded ∧
            (c.reading k loaded b').2.calls = b'.calls + 1)) ∧
    (∀ (b : Bench Entries) (loaded : Except ε (Option α)), (∀ v, loaded ≠ .ok (some v)) →
      (c.reading k loaded b).2.store = b.store) ∧
    ∀ (t : Shop.Lifetimes) (notes : String), (Shop.make t notes).Faithful := by
  refine ⟨?_, ?_, Shop.faithful_make⟩
  · intro hcodec v b b' hloads hmeanwhile
    obtain ⟨text, hencode, hfind⟩ := hloads.find?_reading
    have hfound := found?_of_find? (hmeanwhile.find?_eq.trans hfind)
    constructor
    · intro hget hlt load
      rw [if_pos ⟨hget, hlt⟩, hcodec v text hencode] at hfound
      obtain ⟨hanswer, -, hcalls⟩ := run_readThrough_hit c k b' hfound load
      exact ⟨hanswer, hcalls⟩
    · intro hle loaded
      rw [if_neg fun hready => Instant.not_lt.mpr hle hready.2] at hfound
      obtain ⟨hanswer, hcalls, -⟩ := run_readThrough_miss c k b' hfound loaded
      exact ⟨hanswer, hcalls⟩
  · intro b loaded hnothing
    cases hfound : c.found? k b with
    | some u => exact (run_readThrough_hit c k b hfound (Program.call loaded)).2.1
    | none =>
      rw [reading, (run_readThrough_miss c k b hfound loaded).2.2]
      rcases loaded with failure | _ | v
      · rfl
      · rfl
      · exact absurd rfl (hnothing v)

/-- A store in which a text that means nothing stands under a product's key. -/
def spoiled : Bench Entries :=
  { store := Memory.plant "product:1" "broken" .empty }

/-- After the product was loaded, it is looked at, another one is loaded, most of an hour goes by,
and reads of the store fail for a while, so that a read of the product calls a loader, in vain. Then
it is read again. -/
def busyHour : List (Shop.Step Nat) :=
  [.operate (.countView 1 1), .operate (.product (.readThrough 2 (.ok (some ⟨2, "cup", 900⟩)))),
    .advance (.ofSeconds 3599), .order .get (some (.unavailable "gone")),
    .operate (.product (.readThrough 1 (.error "away"))), .order .get none,
    .operate (.product (.readThrough 1 (.ok (some ⟨1, "coffee", 500⟩))))]

/-- The product is still read as it was loaded, and a second later it is loaded again. -/
theorem load_not_repeated_busyHour :
    let shop := Shop.make {} "named"
    let tea : ProductDetail := ⟨1, "tea", 300⟩
    let loading := shop.products.reading 1 (.ok (some tea) : Except String _) spoiled
    let later := shop.after Memory.backend busyHour loading.2
    let atLast := later.advance (.ofSeconds 1)
    (shop.products.Loads String 1 tea spoiled ∧
        Bench.Meanwhile (shop.products.keyFor 1) loading.2 later ∧ later.failing .get = none ∧
        later.now < spoiled.now.after shop.products.lifetime ∧
        spoiled.now.after shop.products.lifetime ≤ atLast.now) ∧
      (shop.products.reading 1 (.error "away") later).1 = .ok (some tea) ∧
      (shop.products.reading 1 (.error "away") atLast).1 = .error "away" ∧
      (shop.products.reading 1 (.error "away") spoiled).2.store = spoiled.store := by
  intro shop tea loading later atLast
  have hloads : shop.products.Loads String 1 tea spoiled := by
    refine ⟨by decide +kernel, ?_, rfl⟩
    obtain ⟨text, hencode, -⟩ := Codec.lawful_json ProductDetail tea
    exact ⟨text, hencode⟩
  have hmeanwhile : Bench.Meanwhile (shop.products.keyFor 1) loading.2 later :=
    Shop.meanwhile_after (by decide +kernel)
  have hget : later.failing .get = none := by decide +kernel
  have hlt : later.now < spoiled.now.after shop.products.lifetime := by decide +kernel
  have hle : spoiled.now.after shop.products.lifetime ≤ atLast.now := by decide +kernel
  obtain ⟨hkept, hnothing, hfaithful⟩ := load_not_repeated (ε := String) shop.products 1
  have hfaithful := (hfaithful {} "named").products
  refine ⟨⟨hloads, hmeanwhile, hget, hlt, hle⟩, ?_, ?_, hnothing _ _ nofun⟩
  · exact ((hkept hfaithful tea spoiled later hloads hmeanwhile).1 hget hlt _).1
  · exact ((hkept hfaithful tea spoiled atLast hloads (.advance _ hmeanwhile)).2 hle _).1

end Cache

end Turnstile
