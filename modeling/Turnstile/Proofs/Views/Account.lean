import Turnstile.Proofs.Shop.Run
import Turnstile.Proofs.Shop.Spaces
import Turnstile.Proofs.Store.Counter

/-! # Every view is accounted for

The account of a product is the exact sum of what was counted for it since its count was last begun
again (`Shop.account`): only what was answered enters it, so what is dropped does not. The counter's
key belongs to the product alone (`Operation.eq_of_writes_views`), and what stands under it is the
account (`kept_after`), whatever else the shop does in between, whatever fails, and however much time
goes by.

So a count is the account, and counting answers the new account or drops what it cannot keep
(`views_accounted`). -/

namespace Turnstile

open Turnstile.Store Turnstile.Time Turnstile.Text

/-! ### One counter -/

namespace Views

variable {p : UInt64} {n : Int} {b : Bench Entries}

/-- What is counted next can be kept. -/
def Accepts (b : Bench Entries) (n : Int) (delta : Int64) : Prop :=
  b.failing .incrBy = none ∧ Counter.Fits (n + delta.toInt)

instance (b : Bench Entries) (n : Int) (delta : Int64) : Decidable (Accepts b n delta) := by
  unfold Accepts; infer_instance

theorem run_count (h : Counter.Kept n (b.store.find? (Key.views p)))
    (hget : b.failing .get = none) :
    (b.run Memory.backend (count p)).1.map Int64.toInt = some n := by
  rw [count, Bench.run_ask_of_ready hget]
  simp only [Memory.backend, Memory.step, h.live?]
  generalize b.store.find? (Key.views p) = found at h ⊢
  cases h with
  | absent => rfl
  | present x =>
    show (Counter.ofText? (Counter.text x)).map Int64.toInt = _
    rw [Counter.ofText?_text]
    rfl

theorem run_increment_of_accepts (h : Counter.Kept n (b.store.find? (Key.views p)))
    {delta : Int64} (hdelta : Accepts b n delta) :
    ∃ sum : Int64, sum.toInt = n + delta.toInt ∧
      (b.run Memory.backend (increment p delta)).1 = some sum ∧
      (b.run Memory.backend (increment p delta)).2.store =
        b.store.put (Key.views p) ⟨Counter.text sum, none⟩ := by
  obtain ⟨hready, hfits⟩ := hdelta
  obtain ⟨x, rfl, hadd⟩ := Memory.add_of_kept h b.now delta.toInt
  cases hsum : Counter.add? x delta.toInt with
  | none => exact absurd hfits (Counter.add?_eq_none_iff.mp hsum)
  | some sum =>
    refine ⟨sum, Counter.add?_eq_some_iff.mp hsum, ?_⟩
    rw [increment, Bench.run_ask_of_ready hready]
    simp only [Memory.backend, Memory.step, hadd, hsum]
    exact ⟨rfl, rfl⟩

theorem run_increment_of_not_accepts (h : Counter.Kept n (b.store.find? (Key.views p)))
    {delta : Int64} (hdelta : ¬ Accepts b n delta) :
    (b.run Memory.backend (increment p delta)).1 = none ∧
      (b.run Memory.backend (increment p delta)).2.store = b.store := by
  cases hf : b.failing .incrBy with
  | some failure =>
    rw [increment, Bench.run_ask_of_failing hf]
    exact ⟨rfl, rfl⟩
  | none =>
    obtain ⟨x, rfl, hadd⟩ := Memory.add_of_kept h b.now delta.toInt
    have hsum : Counter.add? x delta.toInt = none :=
      Counter.add?_eq_none_iff.mpr fun hfits => hdelta ⟨hf, hfits⟩
    rw [increment, Bench.run_ask_of_ready hf]
    simp only [Memory.backend, Memory.step, hadd, hsum]
    exact ⟨rfl, rfl⟩

theorem run_reset (p : UInt64) (b : Bench Entries) :
    (b.run Memory.backend (reset p)).1 = decide (b.failing .delete = none) ∧
      (b.run Memory.backend (reset p)).2.store =
        if b.failing .delete = none then b.store.erase (Key.views p) else b.store := by
  cases hf : b.failing .delete with
  | some failure =>
    rw [reset, Bench.run_ask_of_failing hf]
    exact ⟨rfl, rfl⟩
  | none =>
    rw [reset, Bench.run_ask_of_ready hf]
    exact ⟨rfl, rfl⟩

end Views

namespace Shop

variable {β σ : Type}

/-! ### The account -/

/-- What an operation and its answer make of a product's account. -/
def Operation.enter (p : UInt64) : (o : Operation β) → o.Answer → Int → Int
  | .countView q delta, answer, n => if q = p ∧ answer.isSome then n + delta.toInt else n
  | .resetViews q, answer, n => if q = p ∧ answer = true then 0 else n
  | _, _, n => n

/-- The sum of what was counted for a product since its count was last begun again. -/
def account (s : Shop) (store : Backend σ) (p : UInt64) (xs : List (Moment σ β)) : Int :=
  xs.foldl (fun n x => x.operation.enter p (x.answer s store) n) 0

theorem account_append (s : Shop) (store : Backend σ) (p : UInt64) (xs ys : List (Moment σ β)) :
    s.account store p (xs ++ ys) =
      ys.foldl (fun n x => x.operation.enter p (x.answer s store) n) (s.account store p xs) :=
  List.foldl_append

/-! ### Who writes a counter -/

variable {t : Lifetimes} {notes : String} {p : UInt64} {o : Operation β}

/-- Neither notes nor invalidations of products get at the counter of a product. -/
structure Operation.SparesViews (notes : String) (p : UInt64) (o : Operation β) : Prop where
  notes : ∀ o', o = .noted o' → Key.IsSpace notes ∧ notes ≠ Key.product
  stems : ∀ stem, o = .product (.invalidate stem) → beginsWith stem (Key.viewsName p) = false

theorem Operation.eq_of_writes_views (hspares : o.SparesViews notes p)
    (h : o.Writes (Shop.make t notes) (Key.views p)) :
    (∃ delta, o = .countView p delta) ∨ o = .resetViews p := by
  have hspace : o.space notes = Key.product :=
    space_of_writes (isSpace_space fun o' ho => (hspares.notes o' ho).1) Key.isSpace_product h
  obtain ⟨x, hx, hw⟩ := h
  have hviews : ∀ q, Key.views q = Key.views p → q = p := fun q hq =>
    Key.viewsName_inj (Key.namespaced_inj Key.isSpace_product Key.isSpace_product hq).2
  cases o with
  | countView q delta =>
    cases hx
    exact Or.inl ⟨delta, by rw [hviews q (Command.writes_incrBy.mp hw)]⟩
  | viewCount q =>
    cases hx
    exact absurd hw Command.not_writes_get
  | resetViews q =>
    cases hx
    exact Or.inr (by rw [hviews q (Command.writes_delete.mp hw)])
  | product o =>
    exact absurd hw (CacheOperation.not_writes_views hx fun stem ho => hspares.stems stem (ho ▸ rfl))
  | noted o => exact absurd hspace (hspares.notes o rfl).2
  | _ => exact absurd hspace (by simp only [Operation.space]; decide)

/-! ### Whole runs -/

theorem Operation.enter_of_not_writes {s : Shop} (h : ¬ o.Writes s (Key.views p))
    (answer : o.Answer) (n : Int) : o.enter p answer n = n := by
  cases o with
  | countView q delta =>
    refine if_neg fun hq => h ⟨_, rfl, Command.writes_incrBy.mpr ?_⟩
    rw [hq.1]
  | resetViews q =>
    refine if_neg fun hq => h ⟨_, rfl, Command.writes_delete.mpr ?_⟩
    rw [hq.1]
  | _ => rfl

/-- **One operation** keeps the counter at the account. -/
theorem Operation.kept_run {b : Bench Entries} {n : Int} (hspares : o.SparesViews notes p)
    (h : Counter.Kept n (b.store.find? (Key.views p))) :
    let r := b.run Memory.backend (o.program (Shop.make t notes))
    Counter.Kept (o.enter p r.1 n) (r.2.store.find? (Key.views p)) := by
  dsimp only
  by_cases hw : o.Writes (Shop.make t notes) (Key.views p)
  · obtain ⟨delta, rfl⟩ | rfl := eq_of_writes_views hspares hw
    · simp only [Operation.program, Operation.enter, true_and]
      by_cases hdelta : Views.Accepts b n delta
      · obtain ⟨sum, hsum, hanswer, hstore⟩ := Views.run_increment_of_accepts h hdelta
        rw [hanswer, hstore, if_pos (by rfl), ← hsum, Entries.find?_put, if_pos rfl]
        exact Counter.Kept.present sum
      · obtain ⟨hanswer, hstore⟩ := Views.run_increment_of_not_accepts h hdelta
        rw [hanswer, hstore, if_neg (by simp)]
        exact h
    · obtain ⟨hanswer, hstore⟩ := Views.run_reset p b
      simp only [Operation.program, Operation.enter, true_and, hanswer, hstore, decide_eq_true_iff]
      by_cases hready : b.failing .delete = none
      · rw [if_pos hready, if_pos hready, Entries.find?_erase, if_pos rfl]
        exact Counter.Kept.absent
      · rw [if_neg hready, if_neg hready]
        exact h
  · rw [enter_of_not_writes hw, find?_run hw]
    exact h

/-- **A whole run** keeps it. -/
theorem kept_after (t : Lifetimes) {notes : String} (start : Instant) (p : UInt64)
    (steps : List (Step β)) (hspares : ∀ o, .operate o ∈ steps → o.SparesViews notes p) :
    Counter.Kept
      ((Shop.make t notes).account Memory.backend p
        ((Shop.make t notes).moments Memory.backend steps (freshBench start)))
      (((Shop.make t notes).after Memory.backend steps (freshBench start)).store.find?
        (Key.views p)) := by
  refine moments_after_induction (P := fun xs b => Counter.Kept
    ((Shop.make t notes).account Memory.backend p xs) (b.store.find? (Key.views p)))
    Counter.Kept.absent (fun _ _ _ h => h) (fun _ _ _ _ h => h) ?_
  intro xs b o ho hbefore
  rw [account_append]
  exact Operation.kept_run (hspares o ho) hbefore

/-- What the counter of a product answers if the account is `n`. -/
structure Accounted (b : Bench Entries) (p : UInt64) (n : Int) : Prop where
  /-- The count is the account, if the store can be read. -/
  count : b.failing .get = none →
    (b.run Memory.backend (Views.count p)).1.map Int64.toInt = some n
  /-- What is counted is added to it, if the store takes it and the sum fits. -/
  counted : ∀ delta, Views.Accepts b n delta →
    (b.run Memory.backend (Views.increment p delta)).1.map Int64.toInt = some (n + delta.toInt)
  /-- Else it is dropped, and the store stays as it is. -/
  dropped : ∀ delta, ¬ Views.Accepts b n delta →
    (b.run Memory.backend (Views.increment p delta)).1 = none ∧
      (b.run Memory.backend (Views.increment p delta)).2.store = b.store

/-- **Every view is accounted for**, over every run of a shop on a fresh store: what the counter of a
product answers is settled by the exact sum of what was counted for it since it was last begun
again. -/
theorem views_accounted (t : Lifetimes) {notes : String} (start : Instant) (p : UInt64)
    (steps : List (Step β)) (hspares : ∀ o, .operate o ∈ steps → o.SparesViews notes p) :
    Accounted ((Shop.make t notes).after Memory.backend steps (freshBench start)) p
      ((Shop.make t notes).account Memory.backend p
        ((Shop.make t notes).moments Memory.backend steps (freshBench start))) := by
  have hkept := kept_after t start p steps hspares
  refine ⟨Views.run_count hkept, ?_, fun delta => Views.run_increment_of_not_accepts hkept⟩
  intro delta hdelta
  obtain ⟨sum, hsum, hanswer, -⟩ := Views.run_increment_of_accepts hkept hdelta
  rw [hanswer, ← hsum]
  rfl

/-- A product is looked at while counting fails, while others are, and once too often to be counted. -/
def busyShelf : List (Step Nat) :=
  [.operate (.countView 1 3), .order .incrBy (some (.unavailable "gone")),
    .operate (.countView 1 5), .order .incrBy none, .operate (.countView 2 8),
    .operate (.product (.invalidate "2")), .advance (.ofSeconds 86400),
    .operate (.countView 1 Int64.maxValue), .operate (.countView 1 (-1))]

theorem views_accounted_busyShelf :
    (∀ o, .operate o ∈ busyShelf → o.SparesViews "named" 1) ∧
      (Shop.make {} "named").account Memory.backend 1
        ((Shop.make {} "named").moments Memory.backend busyShelf (freshBench .start)) = 2 ∧
      Accounted ((Shop.make {} "named").after Memory.backend busyShelf (freshBench .start)) 1
        ((Shop.make {} "named").account Memory.backend 1
          ((Shop.make {} "named").moments Memory.backend busyShelf (freshBench .start))) := by
  have hspares : ∀ o, .operate o ∈ busyShelf → o.SparesViews "named" 1 := by
    intro o ho
    refine ⟨fun _ _ => ⟨by decide, by decide⟩, ?_⟩
    rintro stem rfl
    have hstem : stem = "2" := by simpa [busyShelf] using ho
    rw [hstem]
    decide
  exact ⟨hspares, by decide +kernel, views_accounted {} .start 1 busyShelf hspares⟩

end Shop

end Turnstile
