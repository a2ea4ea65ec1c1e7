import Turnstile.Proofs.Cache.Bench
import Turnstile.Proofs.Shop.Spaces

/-! # What the shop keeps, each under a key of its own

The shop keeps five kinds of things in one store: products, counts of views, pages of curations,
tokens and locks (`Holding`). A key is the namespace of its kind and a name (`Holding.key_eq`). Only
products and their counts share a namespace, and there a name with a colon is a count's. So a key tells
what is kept under it, except that it does not tell locks apart (`Holding.eq_or_locks_of_key`).

Between different namespaces no stem of the one begins a key of the other, so what one cache
invalidates is never another's (`keys_apart`). -/

namespace Turnstile.Shop

open Turnstile.Store Turnstile.Time Turnstile.Text

/-- One thing that the shop keeps in its store. -/
inductive Holding where
  | product (id : UInt64)
  | views (product : UInt64)
  | page (k : Key.CurationPage)
  | token (member : UInt64)
  | lock (k : RequestKey)
  deriving DecidableEq

namespace Holding

/-- The key that the component in charge keeps it under. -/
def key (s : Shop) : Holding → String
  | product id => s.products.keyFor id
  | views id => Key.views id
  | page k => s.curations.keyFor k
  | token member => s.tokens.cache.keyFor member
  | lock k => k.storeKey

def space : Holding → String
  | product _ | views _ => Key.product
  | page _ => Key.curation
  | token _ => Key.member
  | lock _ => Key.requestLock

def name : Holding → String
  | product id => Key.productName id
  | views id => Key.viewsName id
  | page k => k.name
  | token member => Key.refreshTokenName member
  | lock k => k.name

theorem key_eq (t : Lifetimes) (notes : String) (x : Holding) :
    x.key (make t notes) = Key.namespaced x.space x.name := by
  cases x <;> rfl

theorem isSpace_space (x : Holding) : Key.IsSpace x.space := by
  cases x <;> simp only [space] <;> decide

theorem eq_or_locks_of_name {x y : Holding} (hspace : x.space = y.space) (hname : x.name = y.name) :
    x = y ∨ ∃ j k, x = lock j ∧ y = lock k := by
  cases x with
  | product id =>
    cases y with
    | product other => exact Or.inl (congrArg product (Key.ofId_inj hname))
    | views other => exact absurd hname (Key.productName_ne_viewsName id other)
    | _ => exact absurd hspace (by simp only [space]; decide)
  | views id =>
    cases y with
    | product other => exact absurd hname.symm (Key.productName_ne_viewsName other id)
    | views other => exact Or.inl (congrArg views (Key.viewsName_inj hname))
    | _ => exact absurd hspace (by simp only [space]; decide)
  | page k =>
    cases y with
    | page other => exact Or.inl (congrArg page (Key.CurationPage.name_inj hname))
    | _ => exact absurd hspace (by simp only [space]; decide)
  | token member =>
    cases y with
    | token other => exact Or.inl (congrArg token (Key.refreshTokenName_inj hname))
    | _ => exact absurd hspace (by simp only [space]; decide)
  | lock j =>
    cases y with
    | lock k => exact Or.inr ⟨j, k, rfl, rfl⟩
    | _ => exact absurd hspace (by simp only [space]; decide)

/-- **A key tells what is kept under it**, unless it is a lock. -/
theorem eq_or_locks_of_key {t : Lifetimes} {notes : String} {x y : Holding}
    (h : x.key (make t notes) = y.key (make t notes)) : x = y ∨ ∃ j k, x = lock j ∧ y = lock k := by
  rw [key_eq, key_eq] at h
  obtain ⟨hspace, hname⟩ := Key.namespaced_inj x.isSpace_space y.isSpace_space h
  exact eq_or_locks_of_name hspace hname

end Holding

/-- **Keys are apart.** Different things have different keys, locks among themselves left aside; and
between different namespaces no stem begins a key, so an invalidation in the one leaves every entry of
the other. -/
theorem keys_apart (t : Lifetimes) (notes : String) :
    (∀ x y : Holding, x.key (make t notes) = y.key (make t notes) →
      x = y ∨ ∃ j k, x = .lock j ∧ y = .lock k) ∧
    ∀ a b, Key.IsSpace a → Key.IsSpace b → a ≠ b →
      (∀ stem name, beginsWith (Key.namespaced a stem) (Key.namespaced b name) = false) ∧
      ∀ {κ α : Type} (c : Cache κ α), c.space = a → ∀ (bench : Bench Entries) (stem name : String),
        (bench.run Memory.backend (c.invalidate stem)).2.store.find? (Key.namespaced b name) =
          bench.store.find? (Key.namespaced b name) := by
  refine ⟨fun x y => Holding.eq_or_locks_of_key, fun a b ha hb hab => ?_⟩
  have hapart : ∀ stem name, beginsWith (Key.namespaced a stem) (Key.namespaced b name) = false := by
    intro stem name
    rw [← Bool.not_eq_true, Key.beginsWith_namespaced ha hb]
    exact fun h => hab h.1
  refine ⟨hapart, fun c hc bench stem name => ?_⟩
  rw [Cache.find?_invalidate, hc]
  exact if_neg fun h => Bool.false_ne_true ((hapart stem name).symm.trans h.2)

/-- Two things with one key are locks, here of requests whose parts are joined alike. And an
invalidation of all of `curation` leaves a product. -/
theorem keys_apart_joinedAlike :
    let j : RequestKey := ⟨"7:POST:/a", "POST", "/b", none⟩
    let k : RequestKey := ⟨"7", "POST", "/a:POST:/b", none⟩
    ((Holding.lock j).key (make {} "named") = (Holding.lock k).key (make {} "named") ∧
        (Holding.lock j = .lock k ∨ ∃ j' k', Holding.lock j = .lock j' ∧ Holding.lock k = .lock k')) ∧
      (Key.IsSpace Key.curation ∧ Key.IsSpace Key.product ∧ Key.curation ≠ Key.product ∧
        ∀ bench : Bench Entries,
          (bench.run Memory.backend ((make {} "named").curations.invalidate "")).2.store.find?
              (Key.namespaced Key.product "33") =
            bench.store.find? (Key.namespaced Key.product "33")) := by
  intro j k
  obtain ⟨hkeys, hspaces⟩ := keys_apart {} "named"
  have hsame : (Holding.lock j).key (make {} "named") = (Holding.lock k).key (make {} "named") := by
    decide
  have hne : Key.curation ≠ Key.product := by decide
  refine ⟨⟨hsame, hkeys _ _ hsame⟩, Key.isSpace_curation, Key.isSpace_product, hne, fun bench => ?_⟩
  exact (hspaces _ _ Key.isSpace_curation Key.isSpace_product hne).2 _ rfl bench "" "33"

end Turnstile.Shop
