import Turnstile.Proofs.Shop.Holdings
import Turnstile.Proofs.Store.Removal

/-! # Invalidating a curation

The key of a curation's page begins with the curation's namespace, its id and a colon (`stemOf`).
Behind the digits of the id stands the colon, so the stem of one curation begins no page of another
one, be its id a beginning of the other's (`CurationPage.beginsWith_stem_iff`), and in other namespaces
no key at all (`Holding.beginsWith_stemOf_iff`).

So an invalidation that reaches the store removes the pages of its curation, those that are over
included, and answers how many of them still counted. Everything else stays as it was
(`curation_invalidated`). -/

namespace Turnstile

open Turnstile.Store Turnstile.Time Turnstile.Text

namespace Key

namespace CurationPage

theorem beginsWith_stem_iff {id : UInt64} {k : CurationPage} :
    beginsWith (stem id) k.name = true ↔ k.curation = id := by
  constructor
  · intro h
    have hcolon : (stem id).toList = Decimal.digits id.toNat ++ ':' :: [] := by
      rw [stem, String.toList_append, toList_ofId]
      rfl
    rw [beginsWith, List.isPrefixOf_iff_prefix, hcolon, toList_name] at h
    have hcut := cut_prefix (colon_not_mem_digits _) (colon_not_mem_digits _) h
    exact (UInt64.toNat_inj.mp (digits_inj hcut.1)).symm
  · rintro rfl
    exact k.beginsWith_stem_name

end CurationPage

/-- What the keys of a curation's pages begin with. -/
def stemOf (curation : UInt64) : String := namespaced Key.curation (CurationPage.stem curation)

example : stemOf 7 = "curation:7:" := by decide

end Key

theorem Shop.Holding.beginsWith_stemOf_iff {t : Lifetimes} {notes : String} {id : UInt64}
    {x : Holding} :
    beginsWith (Key.stemOf id) (x.key (make t notes)) = true ↔ ∃ k, x = page k ∧ k.curation = id := by
  rw [key_eq, Key.stemOf, Key.beginsWith_namespaced Key.isSpace_curation x.isSpace_space]
  cases x with
  | page k =>
    rw [show (page k).name = k.name from rfl, Key.CurationPage.beginsWith_stem_iff]
    constructor
    · rintro ⟨-, hk⟩
      exact ⟨k, rfl, hk⟩
    · rintro ⟨j, hj, hcuration⟩
      obtain rfl := page.inj hj
      exact ⟨rfl, hcuration⟩
  | _ =>
    refine iff_of_false (fun h => absurd h.1 (by simp only [space]; decide)) ?_
    rintro ⟨k, hk, -⟩
    cases hk

namespace Cache

variable {κ α : Type} {b : Bench Entries}

theorem run_get_of_absent {c : Cache κ α} {k : κ} (h : b.store.find? (c.keyFor k) = none) :
    b.run Memory.backend (c.get k) = (none, Bench.note (.counted (.cacheMisses c.space)) b) := by
  cases hf : b.failing .get with
  | some failure =>
    rw [get, Bench.run_ask_of_failing hf]
    rfl
  | none =>
    rw [get, Bench.run_ask_of_ready hf]
    simp only [Memory.backend, Memory.step, Entries.live?, h]
    rfl

theorem answer_invalidate (c : Cache κ α) (stem : String) (h : b.failing .deleteByPrefix = none) :
    (b.run Memory.backend (c.invalidate stem)).1 =
      ((Memory.keys b.now b.store).toFinset.filter fun key =>
        beginsWith (Key.namespaced c.space stem) key = true).card := by
  rw [invalidate, Bench.run_ask_of_ready h]
  have hanswer := Memory.answer_deleteByPrefix b.now (Key.namespaced c.space stem) b.store
  simp only [Memory.backend, hanswer]
  rfl

/-- **An invalidation of a curation** that reaches the store removes its pages and nothing else. Its
stem begins the keys of its own pages only. It answers how many keys with the stem still counted; then
each page of the curation is a miss, and every key without the stem holds what it held, for as long. -/
theorem curation_invalidated (α : Type) [Json.ToJson α] [Json.OfJson α] (lifetime : Span)
    (id : UInt64) :
    let c := curationPages α lifetime
    (∀ k, beginsWith (Key.stemOf id) (c.keyFor k) = true ↔ k.curation = id) ∧
      (∀ t notes (x : Shop.Holding), beginsWith (Key.stemOf id) (x.key (Shop.make t notes)) = true ↔
        ∃ k, x = .page k ∧ k.curation = id) ∧
      ∀ b : Bench Entries, b.failing .deleteByPrefix = none →
        let r := b.run Memory.backend (c.invalidateCuration id)
        r.1 = ((Memory.keys b.now b.store).toFinset.filter fun key =>
            beginsWith (Key.stemOf id) key = true).card ∧
          (∀ k, k.curation = id → r.2.run Memory.backend (c.get k) =
            (none, Bench.note (.counted (.cacheMisses Key.curation)) r.2)) ∧
          ∀ key, beginsWith (Key.stemOf id) key = false →
            r.2.store.live? r.2.now key = b.store.live? b.now key ∧
              Memory.remaining? r.2.now key r.2.store = Memory.remaining? b.now key b.store := by
  intro c
  have hstem : ∀ k, beginsWith (Key.stemOf id) (c.keyFor k) = true ↔ k.curation = id := by
    intro k
    have hspaces : beginsWith (Key.stemOf id) (c.keyFor k) = true ↔
        Key.curation = Key.curation ∧ beginsWith (Key.CurationPage.stem id) k.name = true :=
      Key.beginsWith_namespaced Key.isSpace_curation Key.isSpace_curation
    rw [hspaces, Key.CurationPage.beginsWith_stem_iff, and_iff_right rfl]
  refine ⟨hstem, fun t notes x => Shop.Holding.beginsWith_stemOf_iff, fun b hready => ?_⟩
  intro r
  have hfind : ∀ key, r.2.store.find? key =
      if beginsWith (Key.stemOf id) key = true then none else b.store.find? key := by
    intro key
    have hinvalidate := find?_invalidate c b (Key.CurationPage.stem id) key
    simp only [hready, true_and] at hinvalidate
    exact hinvalidate
  have hnow : r.2.now = b.now := Bench.now_run _ _ _
  refine ⟨answer_invalidate c _ hready, fun k hk => ?_, fun key hkey => ?_⟩
  · exact run_get_of_absent ((hfind _).trans (if_pos ((hstem k).mpr hk)))
  · have hlive : r.2.store.live? r.2.now key = b.store.live? b.now key := by
      rw [Entries.live?, Entries.live?, hfind, hkey, if_neg Bool.false_ne_true, hnow]
    exact ⟨hlive, by rw [Memory.remaining?, Memory.remaining?, hlive, hnow]⟩

/-- Two pages of curation 7, of which one is over, one of curation 70, and a product with its
views. -/
def curated : Bench Entries where
  store :=
    ((((Entries.empty.put "curation:7:product:cursor:null:size:20"
      ⟨"[]", some (Instant.start.after (.ofSeconds 60))⟩).put
      "curation:7:product:cursor:40:size:20" ⟨"[]", some .start⟩).put
      "curation:70:product:cursor:null:size:20"
      ⟨"[]", some (Instant.start.after (.ofSeconds 60))⟩).put "product:7" ⟨"", none⟩).put
      "product:7:views" ⟨"3", none⟩

/-- One page of curation 7 counts and is removed. That of curation 70 has its minute left. -/
theorem curation_invalidated_sevens :
    let c := curationPages CardPage (.ofSeconds 60)
    let r := curated.run Memory.backend (c.invalidateCuration 7)
    (curated.failing .deleteByPrefix = none ∧
        beginsWith (Key.stemOf 7) (c.keyFor ⟨70, none, 20⟩) = false) ∧
      r.1 = 1 ∧ (r.2.run Memory.backend (c.get ⟨7, some 40, 20⟩)).1 = none ∧
      Memory.remaining? r.2.now (c.keyFor ⟨70, none, 20⟩) r.2.store = some (.ofSeconds 60) := by
  intro c r
  obtain ⟨hstem, -, hinvalidated⟩ := curation_invalidated CardPage (.ofSeconds 60) 7
  obtain ⟨hanswer, hmiss, hothers⟩ := hinvalidated curated rfl
  have hother : beginsWith (Key.stemOf 7) (c.keyFor ⟨70, none, 20⟩) = false :=
    (Bool.not_eq_true _).mp fun h => absurd ((hstem _).mp h) (by decide)
  have hcount : ((Memory.keys curated.now curated.store).toFinset.filter fun key =>
      beginsWith (Key.stemOf 7) key = true).card = 1 := by
    rw [Memory.toFinset_keys]
    decide +kernel
  have hremaining : Memory.remaining? curated.now (c.keyFor ⟨70, none, 20⟩) curated.store =
      some (.ofSeconds 60) := by
    decide +kernel
  refine ⟨⟨rfl, hother⟩, hanswer.trans hcount, ?_, (hothers _ hother).2.trans hremaining⟩
  exact congrArg Prod.fst (hmiss ⟨7, some 40, 20⟩ rfl)

end Cache

end Turnstile
