import Mathlib.Logic.Function.Basic
import Mathlib.Data.List.Induction
import Turnstile.Proofs.Cache.Bench
import Turnstile.Proofs.Json.Lawful
import Turnstile.Proofs.Key.Families
import Turnstile.Proofs.Shop.Run

/-! # Reading through a cache is reading the durable value

Products and pages of curations are read through their caches, while their durable values change,
store commands fail, time goes by, and texts that mean nothing get into the store. After a change
an item is stale until a removal that covers it reaches the store (`Stale`).

What is kept of an item that is not stale is its durable value (`Fresh`), whatever happens
(`fresh_afterMoves`): keys of different items are different (`Item.key_inj`), the codecs lose nothing
(`Item.lawful_codec`), and only a loader's answer is written. So if stale items are not read, no reader
can tell the cache from the durable values (`transparent`). -/

namespace Turnstile.Cache

open Turnstile.Store Turnstile.Time Turnstile.Text

/-! ### What is kept -/

/-- What is read through a cache. -/
inductive Item where
  | product (id : UInt64)
  | page (k : Key.CurationPage)
  deriving DecidableEq

namespace Item

abbrev Value : Item → Type
  | product _ => ProductDetail
  | page _ => CardPage

/-- What the item's cache knows it by. -/
abbrev Name : Item → Type
  | product _ => UInt64
  | page _ => Key.CurationPage

def name : (i : Item) → i.Name
  | product id => id
  | page k => k

def cache (t : Shop.Lifetimes) : (i : Item) → Cache i.Name i.Value
  | product _ => products ProductDetail t.product
  | page _ => curationPages CardPage t.curation

def key : Item → String
  | product id => Key.namespaced Key.product (Key.productName id)
  | page k => Key.namespaced Key.curation k.name

theorem keyFor_name (t : Shop.Lifetimes) (i : Item) : (i.cache t).keyFor i.name = i.key := by
  cases i <;> rfl

theorem key_inj {i j : Item} (h : i.key = j.key) : i = j := by
  cases i with
  | product id =>
    cases j with
    | product other =>
      have hname := (Key.namespaced_inj Key.isSpace_product Key.isSpace_product h).2
      rw [Key.ofId_inj hname]
    | page k =>
      have hspace := (Key.namespaced_inj Key.isSpace_product Key.isSpace_curation h).1
      exact absurd hspace (by decide)
  | page k =>
    cases j with
    | product other =>
      have hspace := (Key.namespaced_inj Key.isSpace_curation Key.isSpace_product h).1
      exact absurd hspace (by decide)
    | page other =>
      have hname := (Key.namespaced_inj Key.isSpace_curation Key.isSpace_curation h).2
      rw [Key.CurationPage.name_inj hname]

theorem lawful_codec (t : Shop.Lifetimes) (i : Item) : (i.cache t).codec.Lawful := by
  cases i with
  | product id => exact Codec.lawful_json ProductDetail
  | page k => exact Codec.lawful_json CardPage

end Item

/-! ### Removals -/

/-- A removal of one item, of the names with a stem, or of a curation. -/
inductive Removal where
  | item (i : Item)
  | products (stem : String)
  | pages (stem : String)
  | curation (id : UInt64)

namespace Removal

def Covers : Removal → Item → Prop
  | item i, j => i = j
  | products stem, .product id => beginsWith stem (Key.productName id) = true
  | pages stem, .page k => beginsWith stem k.name = true
  | curation id, .page k => k.curation = id
  | _, _ => False

/-- The kind of its store command. -/
def kind : Removal → Command.Kind
  | item _ => .delete
  | products _ | pages _ | curation _ => .deleteByPrefix

def after (t : Shop.Lifetimes) : Removal → Bench Entries → Bench Entries
  | item i, b => (b.run Memory.backend ((i.cache t).delete i.name)).2
  | products stem, b =>
    (b.run Memory.backend ((Cache.products ProductDetail t.product).invalidate stem)).2
  | pages stem, b =>
    (b.run Memory.backend ((curationPages CardPage t.curation).invalidate stem)).2
  | curation id, b =>
    (b.run Memory.backend (invalidateCuration (curationPages CardPage t.curation) id)).2

variable (t : Shop.Lifetimes) (b : Bench Entries)

theorem find?_after (r : Removal) (key : String) : (r.after t b).store.find? key = none ∨
    (r.after t b).store.find? key = b.store.find? key := by
  have hite : ∀ (p : Prop) [Decidable p] (found : Option Entry),
      (if p then none else found) = none ∨ (if p then none else found) = found := by
    intro p _ found
    by_cases hp : p
    · exact Or.inl (if_pos hp)
    · exact Or.inr (if_neg hp)
  cases r with
  | item i =>
    unfold after
    rw [find?_delete]
    exact hite _ _
  | products stem =>
    unfold after
    rw [find?_invalidate]
    exact hite _ _
  | pages stem =>
    unfold after
    rw [find?_invalidate]
    exact hite _ _
  | curation id =>
    unfold after invalidateCuration
    rw [find?_invalidate]
    exact hite _ _

theorem find?_after_of_covers {r : Removal} {i : Item} (h : r.Covers i)
    (hready : b.failing r.kind = none) : (r.after t b).store.find? i.key = none := by
  cases r with
  | item j =>
    cases h
    unfold after
    rw [find?_delete]
    exact if_pos ⟨hready, (Item.keyFor_name t i).symm⟩
  | products stem =>
    cases i with
    | page k => cases h
    | product id =>
      have hstem : beginsWith (Key.namespaced Key.product stem) (Item.product id).key = true :=
        (Key.beginsWith_namespaced Key.isSpace_product Key.isSpace_product).mpr ⟨rfl, h⟩
      unfold after
      rw [find?_invalidate]
      exact if_pos ⟨hready, hstem⟩
  | pages stem =>
    cases i with
    | product id => cases h
    | page k =>
      have hstem : beginsWith (Key.namespaced Key.curation stem) (Item.page k).key = true :=
        (Key.beginsWith_namespaced Key.isSpace_curation Key.isSpace_curation).mpr ⟨rfl, h⟩
      unfold after
      rw [find?_invalidate]
      exact if_pos ⟨hready, hstem⟩
  | curation id =>
    cases i with
    | product id => cases h
    | page k =>
      cases h
      have hstem : beginsWith (Key.namespaced Key.curation (Key.CurationPage.stem k.curation))
          (Item.page k).key = true :=
        (Key.beginsWith_namespaced Key.isSpace_curation Key.isSpace_curation).mpr
          ⟨rfl, k.beginsWith_stem_name⟩
      unfold after invalidateCuration
      rw [find?_invalidate]
      exact if_pos ⟨hready, hstem⟩

end Removal

/-! ### What happens -/

/-- One thing that happens. -/
inductive Move where
  /-- The item is read through its cache. Should its loader be called, it fails with this, or else
  answers the durable value. -/
  | read (i : Item) (failure : Option String)
  /-- The durable value changes. -/
  | change (i : Item) (value : Option i.Value)
  | remove (r : Removal)
  /-- A text gets under the item's key. -/
  | plant (i : Item) (text : String)
  | advance (d : Span)
  /-- Commands of one kind fail from now on, or no longer fail. -/
  | order (kind : Command.Kind) (failure : Option Failure)

/-- The durable values, and the bench with the caches' store. -/
structure World where
  durable : (i : Item) → Option i.Value
  bench : Bench Entries

namespace World

/-- What the loader comes to. -/
def loaded (w : World) (i : Item) : Option String → Except String (Option i.Value)
  | some failure => .error failure
  | none => .ok (w.durable i)

/-- A read through the cache. -/
def read (t : Shop.Lifetimes) (i : Item) (failure : Option String) (w : World) :
    Except String (Option i.Value) × Bench Entries :=
  w.bench.run Memory.backend ((i.cache t).readThrough i.name (Program.call (w.loaded i failure)))

end World

def Move.after (t : Shop.Lifetimes) : Move → World → World
  | read i failure, w => { w with bench := (w.read t i failure).2 }
  | change i value, w => { w with durable := Function.update w.durable i value }
  | remove r, w => { w with bench := r.after t w.bench }
  | plant i text, w =>
    { w with bench := { w.bench with store := Memory.plant i.key text w.bench.store } }
  | advance d, w => { w with bench := w.bench.advance d }
  | order kind failure, w => { w with bench := w.bench.order kind failure }

/-- The world after one move after another. -/
def afterMoves (t : Shop.Lifetimes) (moves : List Move) (w : World) : World :=
  moves.foldl (fun w m => m.after t w) w

theorem afterMoves_concat (t : Shop.Lifetimes) (moves : List Move) (m : Move) (w : World) :
    afterMoves t (moves ++ [m]) w = m.after t (afterMoves t moves w) := by
  unfold afterMoves
  rw [List.foldl_append]
  rfl

/-! ### Fresh and stale -/

/-- What is kept of the item is its durable value. -/
def Fresh (t : Shop.Lifetimes) (i : Item) (w : World) : Prop :=
  ∀ e v, w.bench.store.find? i.key = some e → (i.cache t).codec.decode e.value = .ok v →
    w.durable i = some v

/-- The item has changed, and no removal that covers it has reached the store since. -/
def Stale (t : Shop.Lifetimes) (w : World) (i : Item) (moves : List Move) : Prop :=
  ∃ before value mid, moves = before ++ .change i value :: mid ∧
    ∀ m₁ r m₂, mid = m₁ ++ .remove r :: m₂ → r.Covers i →
      (afterMoves t (before ++ .change i value :: m₁) w).bench.failing r.kind ≠ none

variable {t : Shop.Lifetimes} {w : World} {i : Item} {moves : List Move}

theorem stale_change (t : Shop.Lifetimes) (w : World) (moves : List Move) (i : Item)
    (value : Option i.Value) : Stale t w i (moves ++ [.change i value]) := by
  refine ⟨moves, value, [], rfl, ?_⟩
  intro m₁ r m₂ h
  exact absurd h.symm (List.append_ne_nil_of_right_ne_nil m₁ (List.cons_ne_nil _ _))

theorem Stale.concat (h : Stale t w i moves) {m : Move}
    (hm : ∀ r, m = .remove r → r.Covers i → (afterMoves t moves w).bench.failing r.kind ≠ none) :
    Stale t w i (moves ++ [m]) := by
  obtain ⟨before, value, mid, rfl, hmid⟩ := h
  refine ⟨before, value, mid ++ [m], by simp, ?_⟩
  intro m₁ r m₂ hsplit hcovers
  rcases List.eq_nil_or_concat m₂ with rfl | ⟨m₂', last, rfl⟩
  · obtain ⟨rfl, hlast⟩ := List.append_inj' hsplit rfl
    exact hm r (List.cons.inj hlast).1 hcovers
  · rw [List.concat_eq_append, ← List.cons_append, ← List.append_assoc] at hsplit
    obtain ⟨hinit, -⟩ := List.append_inj' hsplit rfl
    exact hmid m₁ r m₂' hinit hcovers

/-- **One read** of a fresh item answers its durable value, unless the loader that it calls fails. -/
theorem answer_of_fresh (hi : Fresh t i w) (failure : Option String) :
    (∀ v, (w.read t i failure).1 = .ok v → v = w.durable i) ∧
      (∀ e, (w.read t i failure).1 = .error e →
        failure = some e ∧ (w.read t i failure).2.calls = w.bench.calls + 1) := by
  unfold World.read
  cases hfound : (i.cache t).found? i.name w.bench with
  | some v =>
    obtain ⟨hanswer, -, -⟩ := run_readThrough_hit (i.cache t) i.name w.bench hfound
      (Program.call (w.loaded i failure))
    obtain ⟨e, hfind, -, hdecode⟩ := found?_eq_some hfound
    rw [Item.keyFor_name] at hfind
    have hdurable := hi e v hfind hdecode
    rw [hanswer]
    constructor
    · intro u hu
      rw [← Except.ok.inj hu, hdurable]
    · intro e he
      cases he
  | none =>
    obtain ⟨hanswer, hcalls, -⟩ :=
      run_readThrough_miss (i.cache t) i.name w.bench hfound (w.loaded i failure)
    rw [hanswer]
    cases failure with
    | none =>
      constructor
      · intro u hu
        exact (Except.ok.inj hu).symm
      · intro e he
        cases he
    | some message =>
      constructor
      · intro u hu
        cases hu
      · intro e he
        cases he
        exact ⟨rfl, hcalls⟩

theorem find?_read (t : Shop.Lifetimes) (w : World) (i j : Item) (failure : Option String) :
    (w.read t i failure).2.store.find? j.key = w.bench.store.find? j.key ∨
      i = j ∧ ∃ e v, (w.read t i failure).2.store.find? i.key = some e ∧
        (i.cache t).codec.decode e.value = .ok v ∧ w.durable i = some v := by
  unfold World.read
  cases hfound : (i.cache t).found? i.name w.bench with
  | some v =>
    obtain ⟨-, hstore, -⟩ := run_readThrough_hit (i.cache t) i.name w.bench hfound
      (Program.call (w.loaded i failure))
    rw [hstore]
    exact Or.inl rfl
  | none =>
    obtain ⟨-, -, hstore⟩ :=
      run_readThrough_miss (i.cache t) i.name w.bench hfound (w.loaded i failure)
    rw [hstore]
    cases failure with
    | some message => exact Or.inl rfl
    | none =>
      unfold World.loaded
      cases hdurable : w.durable i with
      | none => exact Or.inl rfl
      | some v =>
        dsimp only
        rw [(run_set (i.cache t) i.name w.bench v none).2]
        obtain ⟨text, hencode, hdecode⟩ := i.lawful_codec t v
        rw [hencode, Item.keyFor_name]
        cases w.bench.failing .set with
        | some failure => exact Or.inl rfl
        | none =>
          dsimp only
          rw [Entries.find?_put, Entries.find?_put, if_pos rfl]
          by_cases hij : j.key = i.key
          · exact Or.inr ⟨Item.key_inj hij.symm, _, v, rfl, hdecode, rfl⟩
          · rw [if_neg hij]
            exact Or.inl rfl

theorem Fresh.of_find? (hi : Fresh t i w) {b : Bench Entries}
    (h : b.store.find? i.key = none ∨ b.store.find? i.key = w.bench.store.find? i.key) :
    Fresh t i { w with bench := b } := by
  intro e v hfind hdecode
  rcases h with hnone | hsame
  · exact absurd (hnone.symm.trans hfind) (by simp)
  · exact hi e v (hsame.symm.trans hfind) hdecode

/-- **One move.** A fresh item stays fresh unless it changes. -/
theorem Fresh.after (hi : Fresh t i w) {m : Move} (hchange : ∀ value, m ≠ .change i value)
    (hplant : ∀ text, m = .plant i text → ∀ v, (i.cache t).codec.decode text ≠ .ok v) :
    Fresh t i (m.after t w) := by
  cases m with
  | read j failure =>
    rcases find?_read t w j i failure with hsame | ⟨rfl, e, v, hfind, hdecode, hdurable⟩
    · exact hi.of_find? (Or.inr hsame)
    · intro e' v' hfind' hdecode'
      rw [← Option.some.inj (hfind.symm.trans hfind')] at hdecode'
      rw [← Except.ok.inj (hdecode.symm.trans hdecode')]
      exact hdurable
  | change j value =>
    have hij : i ≠ j := by
      rintro rfl
      exact hchange value rfl
    intro e v hfind hdecode
    show Function.update w.durable j value i = some v
    rw [Function.update_of_ne hij]
    exact hi e v hfind hdecode
  | remove r => exact hi.of_find? (r.find?_after t w.bench i.key)
  | plant j text =>
    by_cases hij : i.key = j.key
    · cases Item.key_inj hij
      intro e v hfind hdecode
      have hplanted : (Memory.plant i.key text w.bench.store).find? i.key = some ⟨text, none⟩ := by
        unfold Memory.plant
        rw [Entries.find?_put, if_pos rfl]
      rw [← Option.some.inj (hplanted.symm.trans hfind)] at hdecode
      exact absurd hdecode (hplant text rfl v)
    · refine hi.of_find? (Or.inr ?_)
      show (Memory.plant j.key text w.bench.store).find? i.key = _
      unfold Memory.plant
      rw [Entries.find?_put, if_neg hij]
  | advance d => exact hi
  | order kind failure => exact hi

/-- **What is not stale is fresh**, over a whole run. -/
theorem fresh_afterMoves (hw : ∀ i, Fresh t i w)
    (hplanted : ∀ i text, .plant i text ∈ moves → ∀ v, (i.cache t).codec.decode text ≠ .ok v)
    (hi : ¬ Stale t w i moves) : Fresh t i (afterMoves t moves w) := by
  induction moves using List.reverseRecOn generalizing i with
  | nil => exact hw i
  | append_singleton moves m ih =>
    have hplanted' : ∀ i text, .plant i text ∈ moves →
        ∀ v, (i.cache t).codec.decode text ≠ .ok v :=
      fun i text h => hplanted i text (List.mem_append_left _ h)
    rw [afterMoves_concat]
    by_cases hclears : ∃ r, m = .remove r ∧ r.Covers i ∧
        (afterMoves t moves w).bench.failing r.kind = none
    · obtain ⟨r, rfl, hcovers, hready⟩ := hclears
      intro e v hfind
      have hnone := Removal.find?_after_of_covers t (afterMoves t moves w).bench hcovers hready
      exact absurd (hnone.symm.trans hfind) (by simp)
    · -- Had the item been stale before, it still would be.
      have hbefore : ¬ Stale t w i moves := fun hstale =>
        hi (hstale.concat fun r hr hcovers hready => hclears ⟨r, hr, hcovers, hready⟩)
      refine (ih hplanted' hbefore).after ?_ ?_
      · rintro value rfl
        exact hi (stale_change t w moves i value)
      · rintro text rfl
        exact hplanted i text (by simp)

/-! ### Whole runs -/

/-- How changes are made known to the caches. -/
structure Disciplined (t : Shop.Lifetimes) (w : World) (moves : List Move) : Prop where
  /-- Between a change of an item and the next read of it there is a removal that covers it, and whose
  command does not fail. -/
  cleared : ∀ before i value mid failure rest,
    moves = before ++ .change i value :: (mid ++ .read i failure :: rest) →
      ∃ m₁ r m₂, mid = m₁ ++ .remove r :: m₂ ∧ r.Covers i ∧
        (afterMoves t (before ++ .change i value :: m₁) w).bench.failing r.kind = none
  /-- What is planted for an item cannot be decoded. -/
  planted : ∀ i text, .plant i text ∈ moves → ∀ v, (i.cache t).codec.decode text ≠ .ok v

/-- **Transparency.** Whatever fails and whenever entries end, a read through the cache answers the
durable value, or else fails because the loader does that it calls. -/
theorem transparent {t : Shop.Lifetimes} {durable : (i : Item) → Option i.Value} {start : Instant}
    {moves : List Move} (h : Disciplined t ⟨durable, Shop.freshBench start⟩ moves)
    {before rest : List Move} {i : Item} {failure : Option String}
    (hread : moves = before ++ .read i failure :: rest) :
    let w := afterMoves t before ⟨durable, Shop.freshBench start⟩
    (∀ v, (w.read t i failure).1 = .ok v → v = w.durable i) ∧
      ∀ e, (w.read t i failure).1 = .error e →
        failure = some e ∧ (w.read t i failure).2.calls = w.bench.calls + 1 := by
  subst hread
  have hempty : ∀ i, Fresh t i ⟨durable, Shop.freshBench start⟩ := by
    intro i e v hfind
    cases hfind
  have hplanted : ∀ i text, .plant i text ∈ before →
      ∀ v, (i.cache t).codec.decode text ≠ .ok v :=
    fun i text hmem => h.planted i text (List.mem_append_left _ hmem)
  refine answer_of_fresh (fresh_afterMoves hempty hplanted ?_) failure
  rintro ⟨before', value, mid, rfl, hmid⟩
  obtain ⟨m₁, r, m₂, hsplit, hcovers, hready⟩ :=
    h.cleared before' i value mid failure rest (by simp)
  exact hmid m₁ r m₂ hsplit hcovers hready

/-- One product is for sale. -/
def shelf : World where
  durable
    | .product 1 => some ⟨1, "tea", 300⟩
    | _ => none
  bench := Shop.freshBench .start

/-- The product is read, and then sold out. Before it is read again, reads of the store begin to fail,
products are invalidated, and a text that means nothing gets into the store. -/
def soldOut : List Move :=
  [.read (.product 1) none, .change (.product 1) none, .order .get (some (.unavailable "gone")),
    .remove (.products "1"), .plant (.product 2) "broken", .read (.product 1) none]

theorem disciplined_soldOut : Disciplined {} shelf soldOut where
  cleared := by
    intro before i value mid failure rest h
    unfold soldOut at h
    rcases before with _ | ⟨a, _ | ⟨b, before⟩⟩
    · simp at h
    · simp only [List.cons_append, List.nil_append, List.cons.injEq, Move.change.injEq] at h
      obtain ⟨rfl, ⟨rfl, -⟩, h⟩ := h
      rcases mid with _ | ⟨c, _ | ⟨d, _ | ⟨e, mid⟩⟩⟩
      · simp at h
      · simp at h
      · simp at h
      · simp only [List.cons_append, List.cons.injEq] at h
        obtain ⟨rfl, rfl, rfl, -⟩ := h
        have hcovers : beginsWith "1" (Key.productName 1) = true := by decide
        refine ⟨[.order .get (some (.unavailable "gone"))], .products "1", _, rfl, hcovers, ?_⟩
        simp [afterMoves, Move.after, World.read, Bench.order, Removal.kind, shelf, Shop.freshBench]
    · have hmem : Move.change i value ∈ [Move.order .get (some (.unavailable "gone")),
          .remove (.products "1"), .plant (.product 2) "broken", .read (.product 1) none] := by
        simp only [List.cons_append, List.cons.injEq] at h
        rw [h.2.2]
        simp
      simp at hmem
  planted := by
    intro i text hmem v
    have hplant : i = .product 2 ∧ text = "broken" := by
      simpa [soldOut] using hmem
    obtain ⟨rfl, rfl⟩ := hplant
    have hparse : Json.parse "broken".toList = none := by decide
    unfold Item.cache products Codec.json
    dsimp only
    rw [hparse]
    exact nofun

theorem transparent_soldOut :
    Disciplined {} shelf soldOut ∧
      let w := afterMoves {} (soldOut.take 5) shelf
      (∀ v, (w.read {} (.product 1) none).1 = .ok v → v = w.durable (.product 1)) ∧
        ∀ e, (w.read {} (.product 1) none).1 = .error e →
          none = some e ∧ (w.read {} (.product 1) none).2.calls = w.bench.calls + 1 :=
  ⟨disciplined_soldOut, transparent disciplined_soldOut rfl⟩

end Turnstile.Cache
