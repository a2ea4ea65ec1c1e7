import Turnstile.Proofs.Cache.Bench
import Turnstile.Proofs.Views.Account

/-! # What becomes of a count when products are invalidated

The count of a product's views stands in the namespace of the products, so whoever invalidates products
by a stem removes the counts whose names begin with it too (`TakesViews`). That is the only way in
which an operation of a cache of products gets at a count: any other one leaves its entry alone
(`CacheOperation.not_writes_views`), and the count that is read depends on nothing else
(`Views.shown_congr`).

So after an operation of the cache the count is what it was, unless it was taken; then it begins again
at zero (`count_kept_iff`). A count that was not zero is lost by that (`count_not_kept`). -/

namespace Turnstile

open Turnstile.Store Turnstile.Time Turnstile.Text

/-! ### Reading a count -/

namespace Views

variable {p : UInt64} {b b' : Bench Entries}

/-- The count of a product, as it is read. -/
def shown (p : UInt64) (b : Bench Entries) : Option Int64 := (b.run Memory.backend (count p)).1

theorem shown_of_failing {failure : Failure} (h : b.failing .get = some failure) :
    shown p b = none := by
  rw [shown, count, Bench.run_ask_of_failing h]
  rfl

theorem shown_of_ready (h : b.failing .get = none) :
    shown p b = match b.store.live? b.now (Key.views p) with
      | none => some 0
      | some e => Counter.ofText? e.value := by
  rw [shown, count, Bench.run_ask_of_ready h]
  simp only [Memory.backend, Memory.step]
  cases b.store.live? b.now (Key.views p) <;> rfl

theorem shown_congr (hfind : b'.store.find? (Key.views p) = b.store.find? (Key.views p))
    (hnow : b'.now = b.now) (hfailing : b'.failing = b.failing) : shown p b' = shown p b := by
  cases hf : b.failing .get with
  | some failure => rw [shown_of_failing hf, shown_of_failing (by rw [hfailing]; exact hf)]
  | none =>
    rw [shown_of_ready hf, shown_of_ready (by rw [hfailing]; exact hf), hnow, Entries.live?,
      Entries.live?, hfind]

theorem shown_of_absent (hfind : b.store.find? (Key.views p) = none) (h : b.failing .get = none) :
    shown p b = some 0 := by
  rw [shown_of_ready h, Entries.live?, hfind]
  rfl

end Views

/-! ### Operations of a cache of products -/

namespace Shop

variable {α : Type}

/-- The operation takes a product's count with it: it is an invalidation whose stem the count's name
begins with, and reaches the store. -/
def CacheOperation.TakesViews (p : UInt64) (b : Bench Entries) : CacheOperation UInt64 α → Prop
  | invalidate stem => b.failing .deleteByPrefix = none ∧ beginsWith stem (Key.viewsName p) = true
  | _ => False

instance (p : UInt64) (b : Bench Entries) (o : CacheOperation UInt64 α) :
    Decidable (o.TakesViews p b) := by
  cases o <;> unfold CacheOperation.TakesViews <;> infer_instance

variable [Json.ToJson α] [Json.OfJson α] {p : UInt64} {b : Bench Entries}
  {o : CacheOperation UInt64 α}

theorem find?_of_takesViews (h : o.TakesViews p b) (lifetime : Span) :
    (b.run Memory.backend (o.program (Cache.products α lifetime))).2.store.find? (Key.views p) =
      none := by
  cases o with
  | invalidate stem =>
    have hbegins : beginsWith (Key.namespaced Key.product stem) (Key.views p) = true :=
      (Key.beginsWith_namespaced Key.isSpace_product Key.isSpace_product).mpr ⟨rfl, h.2⟩
    exact (Cache.find?_invalidate _ b stem _).trans (if_pos ⟨h.1, hbegins⟩)
  | _ => exact absurd h id

theorem find?_of_not_takesViews (h : ¬ o.TakesViews p b) (lifetime : Span) :
    (b.run Memory.backend (o.program (Cache.products α lifetime))).2.store.find? (Key.views p) =
      b.store.find? (Key.views p) := by
  by_cases hstem : ∀ stem, o = .invalidate stem → beginsWith stem (Key.viewsName p) = false
  · exact Bench.find?_run ((o.within_gives _).mono fun x hx =>
      CacheOperation.not_writes_views hx hstem) b
  · -- The stem is one of the count's name, so the invalidation has not reached the store.
    obtain ⟨stem, hstem⟩ := not_forall.mp hstem
    obtain ⟨rfl, hbegins⟩ := Classical.not_imp.mp hstem
    have hfailing : b.failing .deleteByPrefix ≠ none := fun hready =>
      h ⟨hready, (Bool.not_eq_false _).mp hbegins⟩
    exact (Cache.find?_invalidate _ b stem _).trans (if_neg fun hboth => hfailing hboth.1)

/-- **What an operation on products makes of a count.** It is kept, unless the operation takes a count
that can be read and is not zero. Then it begins again at zero. -/
theorem count_kept_iff (lifetime : Span) (o : CacheOperation UInt64 α) (p : UInt64)
    (b : Bench Entries) :
    let after := (b.run Memory.backend (o.program (Cache.products α lifetime))).2
    (Views.shown p after = Views.shown p b ↔
        ¬ (o.TakesViews p b ∧ b.failing .get = none ∧ Views.shown p b ≠ some 0)) ∧
      (Views.shown p after = Views.shown p b ∨ Views.shown p after = some 0) := by
  intro after
  have hnow : after.now = b.now := Bench.now_run _ _ _
  have hfailing : after.failing = b.failing := Bench.failing_run _ _ _
  by_cases htakes : o.TakesViews p b
  · cases hget : b.failing .get with
    | some failure =>
      have hsame : Views.shown p after = Views.shown p b := by
        rw [Views.shown_of_failing hget, Views.shown_of_failing (by rw [hfailing]; exact hget)]
      exact ⟨iff_of_true hsame fun h => Option.some_ne_none _ h.2.1, Or.inl hsame⟩
    | none =>
      have hzero : Views.shown p after = some 0 :=
        Views.shown_of_absent (find?_of_takesViews htakes lifetime) (by rw [hfailing]; exact hget)
      rw [hzero]
      exact ⟨⟨fun h hlost => hlost.2.2 h.symm,
        fun h => Eq.symm (by_contra fun hne => h ⟨htakes, rfl, hne⟩)⟩, Or.inr rfl⟩
  · have hsame : Views.shown p after = Views.shown p b :=
      Views.shown_congr (find?_of_not_takesViews htakes lifetime) hnow hfailing
    exact ⟨iff_of_true hsame fun h => htakes h.1, Or.inl hsame⟩

/-- A product was looked at once; when all products are invalidated, so is its count. -/
theorem count_not_kept :
    ¬ ∀ (steps : List (Step Nat)) (o : CacheOperation UInt64 ProductDetail) (p : UInt64),
      let shop := make {} "named"
      let b := shop.after Memory.backend steps (freshBench .start)
      Views.shown p (b.run Memory.backend (o.program shop.products)).2 = Views.shown p b := by
  intro h
  have hlost := h [.operate (.countView 7 1)] (.invalidate "") 7
  revert hlost
  decide +kernel

end Shop

end Turnstile
