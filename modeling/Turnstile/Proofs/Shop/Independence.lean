import Turnstile.Proofs.Shop.Commands
import Turnstile.Proofs.Shop.Run
import Turnstile.Proofs.Store.Arithmetic
import Turnstile.Proofs.Store.Locality

/-! # Independent operations commute

Every operation of the shop is about certain keys: one key, or for an invalidation all keys that begin
with a stem (`Operation.Concerns`). Its commands have to do with no others
(`Operation.within_concerns`), so two operations that are about different keys can change places: in
either order they answer what they answer alone, and leave the same.

Two increments of one count are about the same key. In either order they come to the exact sum, unless
one of them is dropped on the way (`Views.sameTotal`). -/

namespace Turnstile

open Turnstile.Store Turnstile.Time Turnstile.Text

/-! ### What an operation is about -/

namespace Shop

/-- The operation of the cache is about the key. -/
def CacheOperation.Concerns {κ α : Type} (c : Cache κ α) : CacheOperation κ α → String → Prop
  | get k, key | set k _ _, key | delete k, key | readThrough k _, key => key = c.keyFor k
  | invalidate stem, key => beginsWith (Key.namespaced c.space stem) key = true

theorem CacheOperation.about_of_gives {κ α : Type} {c : Cache κ α} {o : CacheOperation κ α}
    {x : Command} (h : o.Gives c x) : x.About (o.Concerns c) := by
  cases o with
  | get k | delete k =>
    cases h
    exact rfl
  | set k value lifetime =>
    obtain ⟨text, t, rfl⟩ := h
    exact rfl
  | invalidate stem =>
    cases h
    exact fun _ hstem => hstem
  | readThrough k source =>
    obtain rfl | ⟨text, t, rfl⟩ := h <;> exact rfl

namespace Operation

variable {β γ : Type} {s : Shop} {o : Operation β}

/-- The operation is about the key. -/
def Concerns (s : Shop) : Operation β → String → Prop
  | acquire k, key | guard k _, key => key = k.storeKey
  | countView id _, key | viewCount id, key | resetViews id, key => key = Key.views id
  | saveToken id _, key | findToken id, key | checkToken id _, key | revokeToken id, key =>
    key = s.tokens.cache.keyFor id
  | invalidateCuration id, key =>
    beginsWith (Key.namespaced s.curations.space (Key.CurationPage.stem id)) key = true
  | product o, key => o.Concerns s.products key
  | curationPage o, key => o.Concerns s.curations key
  | stock o, key => o.Concerns s.stocks key
  | memberToken o, key => o.Concerns s.members key
  | noted o, key => o.Concerns s.notes key

theorem about_of_gives {x : Command} (h : o.Gives s x) : x.About (o.Concerns s) := by
  cases o with
  | acquire k | guard k outcome | countView id delta | viewCount id | resetViews id =>
    cases h
    exact rfl
  | saveToken id token =>
    exact CacheOperation.about_of_gives (c := s.tokens.cache) (o := .set id token none) h
  | findToken id | checkToken id presented =>
    exact CacheOperation.about_of_gives (c := s.tokens.cache) (o := .get id) h
  | revokeToken id => exact CacheOperation.about_of_gives (c := s.tokens.cache) (o := .delete id) h
  | invalidateCuration id =>
    exact CacheOperation.about_of_gives (c := s.curations) (o := .invalidate _) h
  | product o => exact CacheOperation.about_of_gives (c := s.products) h
  | curationPage o => exact CacheOperation.about_of_gives (c := s.curations) h
  | stock o => exact CacheOperation.about_of_gives (c := s.stocks) h
  | memberToken o => exact CacheOperation.about_of_gives (c := s.members) h
  | noted o => exact CacheOperation.about_of_gives (c := s.notes) h

theorem within_concerns (s : Shop) (o : Operation β) :
    (o.program s).Within (Command.About (o.Concerns s)) :=
  (o.within_gives s).mono fun _ => about_of_gives

/-- The operations are about different keys. -/
def Apart (s : Shop) (o : Operation β) (o' : Operation γ) : Prop :=
  ∀ key, o.Concerns s key → ¬ o'.Concerns s key

end Operation

end Shop

/-! ### Two increments of one count -/

namespace Views

variable {p : UInt64} {delta delta' total total' : Int64} {b : Bench Entries}

/-- What the second of two increments answers, and the bench after both. -/
def incrementTwice (p : UInt64) (delta delta' : Int64) (b : Bench Entries) :
    Option Int64 × Bench Entries :=
  (b.run Memory.backend (increment p delta)).2.run Memory.backend (increment p delta')

theorem within_increment (p : UInt64) (delta : Int64) :
    (increment p delta).Within (Command.About (· = Key.views p)) :=
  (Shop.Operation.countView p delta : Shop.Operation Unit).within_concerns (.make {} "")

theorem within_count (p : UInt64) : (count p).Within (Command.About (· = Key.views p)) :=
  (Shop.Operation.viewCount p : Shop.Operation Unit).within_concerns (.make {} "")

theorem find?_incrementTwice_of_ne {key : String} (h : key ≠ Key.views p) :
    (incrementTwice p delta delta' b).2.store.find? key = b.store.find? key :=
  (Bench.find?_run_of_about (within_increment p delta') h _).trans
    (Bench.find?_run_of_about (within_increment p delta) h b)

/-- Neither of the two increments is dropped. -/
def BothCounted (p : UInt64) (delta delta' : Int64) (b : Bench Entries) : Prop :=
  (b.run Memory.backend (increment p delta)).1.isSome = true ∧
    (incrementTwice p delta delta' b).1.isSome = true

theorem run_increment_of_some (h : (b.run Memory.backend (increment p delta)).1 = some total) :
    ∃ v, Counter.value? (b.store.live? b.now (Key.views p)) = some v ∧
      total.toInt = v.toInt + delta.toInt ∧
      (b.run Memory.backend (increment p delta)).2.store.live? b.now (Key.views p) =
        some ⟨Counter.text total, (b.store.live? b.now (Key.views p)).bind Entry.expiry⟩ := by
  cases hf : b.failing .incrBy with
  | some failure =>
    rw [increment, Bench.run_ask_of_failing hf] at h
    cases h
  | none =>
    have hadds := Memory.adds b.now (Key.views p) delta.toInt b.store
    have hsums := Counter.sums_of_adds hadds
    rw [increment, Bench.run_ask_of_ready hf] at h ⊢
    simp only [Memory.backend, Memory.step] at h ⊢
    generalize Memory.add b.now (Key.views p) delta.toInt b.store = r at h hadds hsums ⊢
    obtain ⟨answer, after⟩ := r
    cases answer with
    | error failure => cases h
    | ok sum =>
      obtain rfl : sum = total := Option.some.inj h
      obtain ⟨v, hv, hsum⟩ := (hadds.answer_iff sum).mp rfl
      refine ⟨v, hv, hsum, ?_⟩
      replace hsums : Counter.Sums _ [delta.toInt] _ := hsums
      show after.live? b.now (Key.views p) = _
      generalize hlive : after.live? b.now (Key.views p) = found at hsums
      cases hsums with
      | @changed _ w sum' _ hw hsum' =>
        obtain rfl : v = w := Option.some.inj (hv.symm.trans hw)
        have hsame : sum' = sum := by
          rw [← Int64.toInt_inj, hsum, hsum', List.sum_singleton]
        rw [hsame]

theorem run_incrementTwice_of_some (h : (b.run Memory.backend (increment p delta)).1 = some total)
    (h' : (incrementTwice p delta delta' b).1 = some total') :
    ∃ v, Counter.value? (b.store.live? b.now (Key.views p)) = some v ∧
      total'.toInt = v.toInt + delta.toInt + delta'.toInt ∧
      (incrementTwice p delta delta' b).2.store.find? (Key.views p) =
        some ⟨Counter.text total', (b.store.live? b.now (Key.views p)).bind Entry.expiry⟩ := by
  obtain ⟨v, hv, hsum, hlive⟩ := run_increment_of_some h
  obtain ⟨w, hw, hsum', hlive'⟩ := run_increment_of_some h'
  rw [Bench.now_run, hlive] at hw hlive'
  obtain rfl : total = w := Option.some.inj ((Counter.value?_text _ _).symm.trans hw)
  exact ⟨v, hv, by rw [hsum', hsum], (Entries.live?_eq_some_iff.mp hlive').1⟩

/-- The increments leave the same in either order. -/
structure SameTotal (p : UInt64) (delta delta' : Int64) (b : Bench Entries) : Prop where
  /-- The last one answers the same. -/
  answer : (incrementTwice p delta delta' b).1 = (incrementTwice p delta' delta b).1
  count : ((incrementTwice p delta delta' b).2.run Memory.backend (count p)).1 =
    ((incrementTwice p delta' delta b).2.run Memory.backend (count p)).1
  live? : ∀ t key, (incrementTwice p delta delta' b).2.store.live? t key =
    (incrementTwice p delta' delta b).2.store.live? t key

/-- **Two increments change places**, where none is dropped. -/
theorem sameTotal (h : BothCounted p delta delta' b) (h' : BothCounted p delta' delta b) :
    SameTotal p delta delta' b := by
  obtain ⟨first, hfirst⟩ := Option.isSome_iff_exists.mp h.1
  obtain ⟨total, htotal⟩ := Option.isSome_iff_exists.mp h.2
  obtain ⟨first', hfirst'⟩ := Option.isSome_iff_exists.mp h'.1
  obtain ⟨total', htotal'⟩ := Option.isSome_iff_exists.mp h'.2
  obtain ⟨v, hv, hsum, hcounts⟩ := run_incrementTwice_of_some hfirst htotal
  obtain ⟨w, hw, hsum', hcounts'⟩ := run_incrementTwice_of_some hfirst' htotal'
  obtain rfl : v = w := Option.some.inj (hv.symm.trans hw)
  have hsame : total = total' := by
    rw [← Int64.toInt_inj, hsum, hsum']
    exact Int.add_right_comm ..
  have hfind : ∀ key, (incrementTwice p delta delta' b).2.store.find? key =
      (incrementTwice p delta' delta b).2.store.find? key := by
    intro key
    by_cases hkey : key = Key.views p
    · rw [hkey, hcounts, hcounts', hsame]
    · rw [find?_incrementTwice_of_ne hkey, find?_incrementTwice_of_ne hkey]
  have hagree : Bench.AgreeOn (· = Key.views p) (incrementTwice p delta delta' b).2
      (incrementTwice p delta' delta b).2 := by
    refine ⟨?_, ?_, fun key _ => hfind key⟩
    · simp only [incrementTwice, Bench.now_run]
    · simp only [incrementTwice, Bench.failing_run]
  refine ⟨by rw [htotal, htotal', hsame], (Bench.run_congr (within_count p) hagree).1,
    fun t key => ?_⟩
  rw [Entries.live?, Entries.live?, hfind]

end Views

namespace Shop

/-- **Independent operations commute**, on every store, at every reading of the clock, and whatever is
ordered to fail. Operations that are about different keys answer what they answer alone, make the calls
that they make alone, count the same and leave the same, whichever is carried out first. And two
increments of one product's count, if none is dropped in either order, leave the same count. -/
theorem independent_commute (s : Shop) (b : Bench Entries) :
    (∀ {β γ : Type} (o : Operation β) (o' : Operation γ), o.Apart s o' →
      Bench.Commute b (o.program s) (o'.program s)) ∧
    ∀ p delta delta', Views.BothCounted p delta delta' b → Views.BothCounted p delta' delta b →
      Views.SameTotal p delta delta' b :=
  ⟨fun o o' h => Bench.run_comm (o.within_concerns s) (o'.within_concerns s) h b,
    fun _ _ _ => Views.sameTotal⟩

/-- A page that curation 7 once had has ended and is still there; curation 70 has a page too, and
product 7 was looked at twice. -/
def shelves : Bench Entries where
  store := ((Entries.empty.put "curation:7:product:cursor:null:size:20"
      ⟨"gone", some .start⟩).put "curation:70:product:cursor:null:size:20" ⟨"[]", none⟩).put
    "product:7:views" ⟨"2", none⟩
  now := Instant.start.after (.ofSeconds 1)

/-- Curation 7 is invalidated and a page of curation 70 is read through its cache, where it cannot be
decoded; and product 7 is looked at five times more, and one of these is taken back. -/
theorem independent_commute_shelves :
    let s := make {} "named"
    let o : Operation Unit := .invalidateCuration 7
    let o' : Operation Unit := .curationPage (.readThrough ⟨70, none, 20⟩ (.ok none))
    (o.Apart s o' ∧ Bench.Commute shelves (o.program s) (o'.program s)) ∧
      (Views.BothCounted 7 5 (-1) shelves ∧ Views.BothCounted 7 (-1) 5 shelves ∧
        Views.SameTotal 7 5 (-1) shelves) ∧
      (Views.incrementTwice 7 5 (-1) shelves).1 = some 6 := by
  intro s o o'
  have hapart : o.Apart s o' := by
    intro key hstem hkey
    have hname : key = "curation:70:product:cursor:null:size:20" := hkey.trans (by decide +kernel)
    rw [hname] at hstem
    revert hstem
    show ¬ beginsWith _ _ = true
    decide +kernel
  have hcounted : Views.BothCounted 7 5 (-1) shelves := ⟨by decide +kernel, by decide +kernel⟩
  have hcounted' : Views.BothCounted 7 (-1) 5 shelves := ⟨by decide +kernel, by decide +kernel⟩
  obtain ⟨hcommute, htotal⟩ := independent_commute s shelves
  exact ⟨⟨hapart, hcommute o o' hapart⟩, ⟨hcounted, hcounted', htotal 7 5 (-1) hcounted hcounted'⟩,
    by decide +kernel⟩

end Shop

end Turnstile
