import Turnstile.Proofs.Cache.Bench
import Turnstile.Proofs.Shop.Run
import Turnstile.Proofs.Store.Failing

/-! # What is read after a write

A write to a cache takes if its value has a text and the store is not kept from writing it
(`Takes`). Then it takes the place of whatever the key held, and until its lifetime is over it is what
a read finds. A write that does not take is skipped, and the store is as it was: what the key held
before, it holds still (`store_set`). So after a write one reads nothing older than its value exactly if
the write took or nothing older was to be read before (`newest_after_set_iff`).

A skipped write therefore does not put an end to the value before it. An older token goes on being the
current one if the newer one could not be written, and so does an older stock if the newer one has no
text (`not_newest_after_set`). -/

namespace Turnstile.Cache

open Turnstile.Store Turnstile.Time Turnstile.Text

variable {κ α : Type} (c : Cache κ α) (k : κ) (v : α) (lifetime : Option Span) (b : Bench Entries)
  (d : Span) (failing : Command.Kind → Option Failure)

/-- The write takes: the value has a text, and the store is not kept from writing it. -/
def Takes : Prop := b.failing .set = none ∧ (c.codec.encode v).toOption.isSome = true

instance : Decidable (c.Takes v b) := by
  unfold Takes; infer_instance

/-- The value as the codec gives it back. -/
def reread? : Option α :=
  (c.codec.encode v).toOption.bind fun text => (c.codec.decode text).toOption

/-- What a read answers some time later, when commands fail by other orders. -/
def readLater : Option α :=
  (((b.advance d).withFailing failing).run Memory.backend (c.get k)).1

/-- The read shows nothing older than the value: it is a miss, or answers the value. -/
def Newest (answer : Option α) : Prop := answer = none ∨ answer = some v

instance [DecidableEq α] (answer : Option α) : Decidable (Newest v answer) := by
  unfold Newest; infer_instance

theorem readLater_of_failing {failure : Failure} (h : failing .get = some failure) :
    c.readLater k b d failing = none := by
  have hfailing : ((b.advance d).withFailing failing).failing .get = some failure := h
  rw [readLater, (run_get c k _).1, found?, hfailing]

theorem readLater_of_ready (h : failing .get = none) :
    c.readLater k b d failing = (b.store.live? (b.now.after d) (c.keyFor k)).bind fun e =>
      (c.codec.decode e.value).toOption := by
  have hfailing : ((b.advance d).withFailing failing).failing .get = none := h
  rw [readLater, (run_get c k _).1, found?, hfailing]
  rfl

theorem readLater_congr {b b' : Bench Entries} (hstore : b'.store = b.store) (hnow : b'.now = b.now) :
    c.readLater k b' d failing = c.readLater k b d failing := by
  cases hget : failing .get with
  | some failure =>
    rw [readLater_of_failing c k b' d failing hget, readLater_of_failing c k b d failing hget]
  | none =>
    rw [readLater_of_ready c k b' d failing hget, readLater_of_ready c k b d failing hget, hstore, hnow]

theorem store_set :
    (c.Takes v b → ∃ text, c.codec.encode v = .ok text ∧
        (b.run Memory.backend (c.set k v lifetime)).2.store =
          b.store.put (c.keyFor k) ⟨text, some (b.now.after (lifetime.getD c.lifetime))⟩) ∧
      (¬ c.Takes v b → (b.run Memory.backend (c.set k v lifetime)).2.store = b.store) := by
  obtain ⟨-, hstore⟩ := run_set c k b v lifetime
  rw [hstore, Takes]
  cases hset : b.failing .set with
  | some failure => simp
  | none =>
    cases hencode : c.codec.encode v with
    | error failure => simp [Except.toOption]
    | ok text => simp [Except.toOption]

/-- **A write that takes** is read until its lifetime is over. -/
theorem readLater_of_takes (h : c.Takes v b) :
    c.readLater k (b.run Memory.backend (c.set k v lifetime)).2 d failing =
      if failing .get = none ∧ b.now.after d < b.now.after (lifetime.getD c.lifetime) then c.reread? v
      else none := by
  obtain ⟨text, htext, hstore⟩ := (store_set c k v lifetime b).1 h
  cases hget : failing .get with
  | some failure =>
    rw [readLater_of_failing c k _ d failing hget, if_neg fun h => Option.some_ne_none _ h.1]
  | none =>
    rw [readLater_of_ready c k _ d failing hget, hstore, Bench.now_run, Entries.live?_put, if_pos rfl,
      reread?, htext]
    by_cases htime : b.now.after d < b.now.after (lifetime.getD c.lifetime)
    · rw [if_pos ⟨rfl, htime⟩]
      simp [Option.filter, Entry.isLive, htime, Except.toOption]
    · rw [if_neg fun h => htime h.2]
      simp [Option.filter, Entry.isLive, htime]

/-- **What is read after a write**, some time later and with other orders. If the write took, it is the
value as the codec gives it back, while its lifetime lasts; if it was skipped, it is what would have
been read without it. So, with a codec that gives the value back, nothing older is read exactly if the
write took or nothing older was there to be read. -/
theorem newest_after_set_iff :
    (c.readLater k (b.run Memory.backend (c.set k v lifetime)).2 d failing =
      if c.Takes v b then
        if failing .get = none ∧ b.now.after d < b.now.after (lifetime.getD c.lifetime) then c.reread? v
        else none
      else c.readLater k b d failing) ∧
    ((∀ text, c.codec.encode v = .ok text → c.codec.decode text = .ok v) →
      (Newest v (c.readLater k (b.run Memory.backend (c.set k v lifetime)).2 d failing) ↔
        c.Takes v b ∨ Newest v (c.readLater k b d failing))) := by
  by_cases htakes : c.Takes v b
  · have hread := readLater_of_takes c k v lifetime b d failing htakes
    rw [if_pos htakes]
    refine ⟨hread, fun hcodec => iff_of_true ?_ (Or.inl htakes)⟩
    obtain ⟨text, htext, -⟩ := (store_set c k v lifetime b).1 htakes
    have hgiven : c.reread? v = some v := by
      rw [reread?, htext]
      simp only [Except.toOption, Option.bind_some, hcodec text htext]
    rw [hread, hgiven]
    split
    · exact Or.inr rfl
    · exact Or.inl rfl
  · have hread : c.readLater k (b.run Memory.backend (c.set k v lifetime)).2 d failing =
        c.readLater k b d failing :=
      readLater_congr c k d failing ((store_set c k v lifetime b).2 htakes) (Bench.now_run _ _ _)
    rw [if_neg htakes, hread]
    exact ⟨rfl, fun _ => (or_iff_right htakes).symm⟩

/-! ### A write that is skipped -/

/-- A member has a token and a product has a stock. From then on writes fail, or do not. -/
def written (failure : Option Failure) : Bench Entries :=
  let steps : List (Shop.Step Nat) :=
    [.operate (.saveToken 7 "older"), .operate (.stock (.set 1 .empty none)), .order .set failure]
  (Shop.make {} "named").after Memory.backend steps (Shop.freshBench .start)

/-- The newer token is the one that is read if the store takes it, and not if it does not. -/
theorem newest_after_set_iff_token :
    let tokens := memberTokens RefreshTokens.defaultLifetime
    let read := fun failure => tokens.readLater 7
      ((written failure).run Memory.backend (tokens.set 7 "newer" none)).2 (.ofSeconds 1) fun _ => none
    (∀ text, tokens.codec.encode "newer" = .ok text → tokens.codec.decode text = .ok "newer") ∧
      ¬ Newest "newer" (read (some (.unavailable "gone"))) ∧ Newest "newer" (read none) := by
  intro tokens read
  have hcodec : ∀ text, tokens.codec.encode "newer" = .ok text →
      tokens.codec.decode text = .ok "newer" := by
    intro text h
    cases h
    rfl
  have hiff := fun failure => (newest_after_set_iff tokens 7 "newer" none (written failure)
    (.ofSeconds 1) fun _ => none).2 hcodec
  refine ⟨hcodec, fun h => ?_, (hiff none).mpr (Or.inl (by decide +kernel))⟩
  have hor := (hiff (some (.unavailable "gone"))).mp h
  revert hor
  decide +kernel

/-- An older token is what is found after a newer one that the store did not take, and an older stock
after a newer one that has no text. -/
theorem not_newest_after_set :
    (¬ ∀ (b : Bench Entries) (token : String),
      let tokens := RefreshTokens.make RefreshTokens.defaultLifetime
      let after := (b.run Memory.backend (tokens.save 7 token)).2
      Newest token (after.run Memory.backend (tokens.find 7)).1) ∧
    ¬ ∀ (b : Bench Entries) (stock : Stock), b.failing .set = none → b.failing .get = none →
      let stocks := (Shop.make {} "named").stocks
      let after := (b.run Memory.backend (stocks.set 1 stock none)).2
      Newest stock (after.run Memory.backend (stocks.get 1)).1 := by
  constructor
  · intro h
    have hnewest := h (written (some (.unavailable "gone"))) "newer"
    revert hnewest
    decide +kernel
  · intro h
    have hnewest := h (written none) (.ofList [((1, 2), 3)]) rfl rfl
    revert hnewest
    decide +kernel

end Turnstile.Cache
