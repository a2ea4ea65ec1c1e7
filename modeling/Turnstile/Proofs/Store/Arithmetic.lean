import Mathlib.Algebra.BigOperators.Group.List.Basic
import Mathlib.Algebra.Ring.Int.Defs
import Turnstile.Proofs.Store.Counter
import Turnstile.Proofs.Store.Lifetimes

/-! # Counters that add up

One change of a counter is exact, or it is refused and nothing is done (`Memory.Adds`,
`Counter.exact`). The least number has no counterpart, so that it cannot be taken away.

A run is looked at through one key, at what counts there. `Counter.Sums before ds after` says that
the changes `ds`, one after another, lead from `before` to `after`: without any, nothing is different;
else the text is that of the exact sum, and the end is the one there was. Sums compose
(`Counter.Sums.trans`), and they do not depend on the order (`Counter.Sums.eq_of_perm`).

Within one lifetime of the entry (`Timed.OneLifetime`) each act adds the change that it was asked for,
if that succeeded (`Lazy.sums_step`), and so does the run (`Lazy.sums_outcome`). Whatever else is done
meanwhile, and however long it takes, makes no difference. -/

namespace Turnstile.Store

open Turnstile.Time Turnstile.Text

/-! ### One change -/

theorem Counter.fits_iff {n : Int} : Fits n ↔ ∃ x : Int64, x.toInt = n := by
  constructor
  · intro h
    exact ⟨Int64.ofInt n, Int64.toInt_ofInt_of_le h.1 h.2⟩
  · rintro ⟨x, rfl⟩
    exact fits_toInt x

/-- What comes of adding `delta` under a key of `m`. -/
structure Memory.Adds (now : Instant) (key : String) (delta : Int) (m : Entries)
    (r : Except Failure Int64 × Entries) : Prop where
  answer_iff : ∀ sum, r.1 = .ok sum ↔
    ∃ v, Counter.value? (m.live? now key) = some v ∧ sum.toInt = v.toInt + delta
  succeeds_iff : (∃ sum, r.1 = .ok sum) ↔
    ∃ v, Counter.value? (m.live? now key) = some v ∧ Counter.Fits (v.toInt + delta)
  /-- The sum has the end of the entry that counted, and none if none did. -/
  stores : ∀ sum, r.1 = .ok sum →
    r.2 = m.put key ⟨Counter.text sum, (m.live? now key).bind Entry.expiry⟩
  unchanged : ∀ failure, r.1 = .error failure → r.2 = m

theorem Memory.adds (now : Instant) (key : String) (delta : Int) (m : Entries) :
    Adds now key delta m (add now key delta m) := by
  have hanswer : ∀ sum, (add now key delta m).1 = .ok sum ↔
      ∃ v, Counter.value? (m.live? now key) = some v ∧ sum.toInt = v.toInt + delta := by
    intro sum
    rw [add_eq]
    cases Counter.value? (m.live? now key) with
    | none => exact ⟨nofun, nofun⟩
    | some v =>
      simp only [Option.some.injEq, exists_eq_left', ← Counter.add?_eq_some_iff]
      cases Counter.add? v delta <;> simp
  refine ⟨hanswer, ?_, ?_, ?_⟩
  · simp only [hanswer, Counter.fits_iff]
    constructor
    · rintro ⟨sum, v, hv, hsum⟩
      exact ⟨v, hv, sum, hsum⟩
    · rintro ⟨v, hv, sum, hsum⟩
      exact ⟨sum, v, hv, hsum⟩
  · intro sum h
    rw [add_eq] at h ⊢
    split at h
    · cases h
    · split at h
      · cases h
      · next hadd =>
        obtain rfl := Except.ok.inj h
        rfl
  · intro failure h
    rw [add_eq] at h ⊢
    split at h
    · rfl
    · split at h
      · rfl
      · cases h

/-- How the counter under a key of `m` is changed. -/
structure Counter.Exact (now : Instant) (key : String) (m : Entries) : Prop where
  /-- It is zero if no entry counts, and else the integer of 64 bits that the text spells. -/
  value_iff : ∀ v, value? (m.live? now key) = some v ↔
    (m.live? now key = none ∧ v = 0) ∨
      ∃ e, m.live? now key = some e ∧ Decimal.Signed e.value.toList v.toInt
  incrBy : ∀ delta : Int64,
    Memory.Adds now key delta.toInt m (Memory.step now (.incrBy key delta) m)
  decrBy : ∀ delta : Int64, delta ≠ Int64.minValue →
    Memory.Adds now key (-delta.toInt) m (Memory.step now (.decrBy key delta) m)
  decrBy_minValue :
    Memory.step now (.decrBy key Int64.minValue) m = (.error Memory.negationOverflow, m)
  /-- What is written is the number that was answered. -/
  rereads : ∀ sum, ofText? (text sum) = some sum

theorem Counter.exact (now : Instant) (key : String) (m : Entries) : Exact now key m where
  value_iff _ := value?_eq_some_iff
  incrBy delta := Memory.adds now key delta.toInt m
  decrBy delta h := by
    simp only [Memory.step]
    rw [if_neg h]
    exact Memory.adds now key (-delta.toInt) m
  decrBy_minValue := rfl
  rereads := ofText?_text

/-! ### Changes that add up -/

namespace Counter

/-- From what counts under a key before to what counts there after, by changes one after another. -/
inductive Sums (before : Option Entry) : List Int → Option Entry → Prop where
  | untouched : Sums before [] before
  | changed {ds : List Int} {v sum : Int64} (hne : ds ≠ []) (hv : value? before = some v)
      (hsum : sum.toInt = v.toInt + ds.sum) :
      Sums before ds (some ⟨text sum, before.bind Entry.expiry⟩)

namespace Sums

variable {before between after : Option Entry} {ds es : List Int}

theorem trans (h : Sums before ds between) (h' : Sums between es after) :
    Sums before (ds ++ es) after := by
  cases h with
  | untouched => exact h'
  | @changed _ v sum hne hv hsum =>
    cases h' with
    | untouched =>
      rw [List.append_nil]
      exact changed hne hv hsum
    | @changed _ w total _ hw htotal =>
      obtain rfl : sum = w := Option.some.inj ((value?_text _ _).symm.trans hw)
      refine changed (List.append_ne_nil_of_left_ne_nil hne es) hv ?_
      rw [htotal, hsum, List.sum_append, Int.add_assoc]

theorem value?_eq (h : Sums before ds after) :
    (value? after).map Int64.toInt = (value? before).map fun v => v.toInt + ds.sum := by
  cases h with
  | untouched => simp
  | changed _ hv hsum => rw [value?_text, hv, Option.map_some, Option.map_some, hsum]

theorem expiry_eq (h : Sums before ds after) : after.bind Entry.expiry = before.bind Entry.expiry := by
  cases h <;> rfl

/-- **The order makes no difference**, neither to the value nor to the text. -/
theorem eq_of_perm {after' : Option Entry} (hperm : ds.Perm es) (h : Sums before ds after)
    (h' : Sums before es after') : after = after' := by
  cases h with
  | untouched =>
    cases h' with
    | untouched => rfl
    | changed hne => exact absurd (List.nil_perm.mp hperm) hne
  | @changed _ v sum hne hv hsum =>
    cases h' with
    | untouched => exact absurd (List.perm_nil.mp hperm) hne
    | @changed _ w sum' _ hw hsum' =>
      obtain rfl : v = w := Option.some.inj (hv.symm.trans hw)
      have hsums : sum = sum' := by
        rw [← Int64.toInt_inj, hsum, hsum', hperm.sum_eq]
      rw [hsums]

end Sums

theorem sums_of_adds {now : Instant} {key : String} {delta : Int} {m : Entries}
    {r : Except Failure Int64 × Entries} (h : Memory.Adds now key delta m r) :
    Sums (m.live? now key) (if r.1.isOk then [delta] else []) (r.2.live? now key) := by
  obtain ⟨answer, after⟩ := r
  cases answer with
  | error failure =>
    obtain rfl : after = m := h.unchanged failure rfl
    exact .untouched
  | ok sum =>
    obtain ⟨v, hv, hsum⟩ := (h.answer_iff sum).mp rfl
    obtain rfl := h.stores sum rfl
    have hlive : (⟨text sum, (m.live? now key).bind Entry.expiry⟩ : Entry).isLive now = true := by
      cases hfound : m.live? now key with
      | none => rfl
      | some e => exact (Entries.live?_eq_some_iff.mp hfound).2
    have hafter : (m.put key ⟨text sum, (m.live? now key).bind Entry.expiry⟩).live? now key =
        some ⟨text sum, (m.live? now key).bind Entry.expiry⟩ := by
      rw [Entries.live?_eq_some_iff, Entries.find?_put, if_pos rfl]
      exact ⟨rfl, hlive⟩
    show Sums _ [delta] _
    rw [hafter]
    exact .changed (List.cons_ne_nil delta []) hv (by simpa using hsum)

end Counter

/-! ### Acts and runs -/

namespace Act

/-- The change that is asked for of the counter under the key. -/
def change? (key : String) : Act → Option Int
  | command (.incrBy k delta) => if k = key then some delta.toInt else none
  | command (.decrBy k delta) => if k = key then some (-delta.toInt) else none
  | _ => none

/-- If it writes the key at all, it asks for a change of the counter there. -/
def OnlyCounts (key : String) (a : Act) : Prop := a.Writes key → (a.change? key).isSome = true

/-- It was not refused. -/
def isDone : (a : Act) × a.Answer → Bool
  | ⟨command _, reply⟩ => reply.isOk
  | _ => true

/-- The changes that are asked for, one after another. -/
def asked (key : String) (as : List Act) : List Int := as.filterMap (change? key)

/-- The changes that were asked for with success. -/
def made (key : String) (told : List ((a : Act) × a.Answer)) : List Int :=
  asked key ((told.filter isDone).map Sigma.fst)

/-- No change of the counter was refused. -/
def AllDone (key : String) (told : List ((a : Act) × a.Answer)) : Prop :=
  ∀ p ∈ told, (p.1.change? key).isSome = true → isDone p = true

instance (key : String) (told : List ((a : Act) × a.Answer)) : Decidable (AllDone key told) := by
  unfold AllDone; infer_instance

variable {key : String}

theorem eq_of_change? {a : Act} {d : Int} (h : a.change? key = some d) :
    (∃ delta : Int64, a = command (.incrBy key delta) ∧ d = delta.toInt) ∨
      ∃ delta : Int64, a = command (.decrBy key delta) ∧ d = -delta.toInt := by
  unfold change? at h
  split at h
  · next k delta =>
    split at h
    · next hk => exact Or.inl ⟨delta, by rw [hk], (Option.some.inj h).symm⟩
    · cases h
  · next k delta =>
    split at h
    · next hk => exact Or.inr ⟨delta, by rw [hk], (Option.some.inj h).symm⟩
    · cases h
  · cases h

theorem made_cons (p : (a : Act) × a.Answer) (ps : List ((a : Act) × a.Answer)) :
    made key (p :: ps) = made key [p] ++ made key ps := by
  unfold made asked
  rw [← List.filterMap_append, ← List.map_append, ← List.filter_append, List.singleton_append]

theorem made_singleton (a : Act) (reply : a.Answer) :
    made key [⟨a, reply⟩] = if isDone ⟨a, reply⟩ then (a.change? key).toList else [] := by
  unfold made asked
  cases h : isDone ⟨a, reply⟩ <;> cases hc : a.change? key <;> simp [h, hc]

theorem made_of_allDone {told : List ((a : Act) × a.Answer)} (h : AllDone key told) :
    made key told = asked key (told.map Sigma.fst) := by
  induction told with
  | nil => rfl
  | cons p ps ih =>
    obtain ⟨hp, hps⟩ := List.forall_mem_cons.mp h
    rw [made_cons, ih hps, made_singleton]
    unfold asked
    rw [List.map_cons, List.filterMap_cons]
    cases hc : p.1.change? key with
    | none => simp
    | some d =>
      have hdone : isDone ⟨p.1, p.2⟩ = true := hp (by rw [hc]; rfl)
      rw [if_pos hdone]
      rfl

theorem not_puts_of_not_writes {a : Act} (h : ¬ a.Writes key) : ¬ a.Puts key := by
  cases a with
  | command c => exact fun hputs => h (Or.inl hputs)
  | _ => exact h

end Act

theorem map_fst_answers (step : (a : Act) → Timed → a.Answer × Timed) (as : List Act) (s : Timed) :
    (answers step as s).map Sigma.fst = as := by
  induction as generalizing s with
  | nil => rfl
  | cons a as ih => rw [answers, List.map_cons, ih]

/-- Nothing is done to the key but that its counter is changed, and if what counts there has an end,
the clock does not reach it. -/
structure Timed.OneLifetime (key : String) (as : List Act) (s : Timed) : Prop where
  counts : ∀ a ∈ as, a.OnlyCounts key
  lasts : ∀ t, (s.live? key).bind Entry.expiry = some t → (outcome Lazy.step as s).now < t

namespace Lazy

variable {key : String} {a : Act} {as bs : List Act} {s : Timed}

theorem now_le_outcome (as : List Act) (s : Timed) : s.now ≤ (outcome step as s).now := by
  rw [now_outcome]
  exact Instant.le_after s.now_le_last _

theorem live?_step_of_not_writes (h : ¬ a.Writes key)
    (hlasts : ∀ t, (s.live? key).bind Entry.expiry = some t → (step a s).2.now < t) :
    (step a s).2.live? key = s.live? key := by
  cases hlive : s.live? key with
  | none => exact live?_step (Act.not_puts_of_not_writes h) hlive
  | some e =>
    have hfind := (Entries.live?_eq_some_iff.mp hlive).1
    have hcounts : e.isLive (step a s).2.now = true := by
      rw [hlive] at hlasts
      cases hx : e.expiry with
      | none => rw [Entry.isLive, hx]
      | some t => exact (Entry.isLive_of_expiry hx).mpr (hlasts t hx)
    exact Entries.live?_eq_some_iff.mpr ⟨(find?_step h s).trans hfind, hcounts⟩

/-- **One act** adds the change that it was asked for, if that succeeded. -/
theorem sums_step (ha : a.OnlyCounts key)
    (hlasts : ∀ t, (s.live? key).bind Entry.expiry = some t → (step a s).2.now < t) :
    Counter.Sums (s.live? key) (Act.made key [⟨a, (step a s).1⟩]) ((step a s).2.live? key) := by
  rw [Act.made_singleton]
  cases hchange : a.change? key with
  | none =>
    have hwrites : ¬ a.Writes key := by
      intro hw
      have hasks := ha hw
      rw [hchange] at hasks
      cases hasks
    rw [live?_step_of_not_writes hwrites hlasts, Option.toList_none, ite_self]
    exact .untouched
  | some d =>
    have hexact := Counter.exact s.now key s.entries
    obtain ⟨delta, rfl, rfl⟩ | ⟨delta, rfl, rfl⟩ := Act.eq_of_change? hchange
    · exact Counter.sums_of_adds (hexact.incrBy delta)
    · by_cases hmin : delta = Int64.minValue
      · subst hmin
        exact .untouched
      · exact Counter.sums_of_adds (hexact.decrBy delta hmin)

/-- **A run** adds the changes that succeeded, one after another. -/
theorem sums_outcome (h : s.OneLifetime key as) :
    Counter.Sums (s.live? key) (Act.made key (answers step as s))
      ((outcome step as s).live? key) := by
  induction as generalizing s with
  | nil => exact .untouched
  | cons a as ih =>
    have hhead := sums_step (h.counts a List.mem_cons_self) fun t ht =>
      Nat.lt_of_le_of_lt (now_le_outcome as _) (h.lasts t ht)
    -- the end stays what it was, so the rest is within the same lifetime
    have htail : (step a s).2.OneLifetime key as :=
      ⟨fun a' ha' => h.counts a' (List.mem_cons_of_mem a ha'),
        fun t ht => h.lasts t (hhead.expiry_eq.symm.trans ht)⟩
    rw [answers, Act.made_cons]
    exact hhead.trans (ih htail)

end Lazy

/-- **Counters add up.** One change is exact, or it is refused and leaves the store as it was. Within
one lifetime of what counts under a key, the value is the exact sum of the changes that succeeded, and
the end stays. Two runs with the same changes in another order, if none is refused, end with the same
entry. -/
theorem counters_add_up (key : String) :
    (∀ now m, Counter.Exact now key m) ∧
      (∀ s as, Timed.OneLifetime key as s →
        let after := (outcome Lazy.step as s).live? key
        (Counter.value? after).map Int64.toInt = (Counter.value? (s.live? key)).map
            (fun v => v.toInt + (Act.made key (answers Lazy.step as s)).sum) ∧
          after.bind Entry.expiry = (s.live? key).bind Entry.expiry) ∧
      ∀ s as bs, Timed.OneLifetime key as s → Timed.OneLifetime key bs s →
        Act.AllDone key (answers Lazy.step as s) → Act.AllDone key (answers Lazy.step bs s) →
        (Act.asked key as).Perm (Act.asked key bs) →
        (outcome Lazy.step as s).live? key = (outcome Lazy.step bs s).live? key := by
  refine ⟨fun now m => Counter.exact now key m, fun s as h => ?_, ?_⟩
  · have hsums := Lazy.sums_outcome h
    exact ⟨hsums.value?_eq, hsums.expiry_eq⟩
  · intro s as bs has hbs hdone hdone' hperm
    have hsums := Lazy.sums_outcome has
    have hsums' := Lazy.sums_outcome hbs
    rw [Act.made_of_allDone hdone, map_fst_answers] at hsums
    rw [Act.made_of_allDone hdone', map_fst_answers] at hsums'
    exact hsums.eq_of_perm hperm hsums'

/-- Ten are left, for a minute. -/
def tenLeft : Timed where
  entries := Entries.empty.put "left" ⟨"10", some (Instant.start.after (.ofSeconds 60))⟩
  now := .start
  now_le_last := by decide

/-- Five come and two go, and then two go and five come half a minute later: thirteen are left. -/
theorem counters_add_up_tenLeft :
    let as : List Act := [.command (.incrBy "left" 5), .command (.decrBy "left" 2)]
    let bs : List Act := [.command (.decrBy "left" 2), .plant "right" "many",
      .advance (.ofSeconds 30), .command (.incrBy "left" 5)]
    (tenLeft.OneLifetime "left" as ∧ tenLeft.OneLifetime "left" bs ∧
        Act.AllDone "left" (answers Lazy.step as tenLeft) ∧
        Act.AllDone "left" (answers Lazy.step bs tenLeft) ∧
        (Act.asked "left" as).Perm (Act.asked "left" bs)) ∧
      (outcome Lazy.step as tenLeft).live? "left" = (outcome Lazy.step bs tenLeft).live? "left" ∧
      (Counter.value? ((outcome Lazy.step bs tenLeft).live? "left")).map Int64.toInt = some 13 := by
  intro as bs
  have hend : (tenLeft.live? "left").bind Entry.expiry =
      some (Instant.start.after (.ofSeconds 60)) := by decide +kernel
  have has : tenLeft.OneLifetime "left" as := by
    refine ⟨?_, fun t ht => ?_⟩
    · simp only [as, List.forall_mem_cons]
      exact ⟨fun _ => rfl, fun _ => rfl, nofun⟩
    · obtain rfl := Option.some.inj (hend.symm.trans ht)
      decide +kernel
  have hbs : tenLeft.OneLifetime "left" bs := by
    refine ⟨?_, fun t ht => ?_⟩
    · simp only [bs, List.forall_mem_cons]
      have hright : ¬ (Act.plant "right" "many").Writes "left" := by
        show ¬ "right" = "left"
        decide
      exact ⟨fun _ => rfl, fun h => absurd h hright, nofun, fun _ => rfl, nofun⟩
    · obtain rfl := Option.some.inj (hend.symm.trans ht)
      decide +kernel
  have hdone : Act.AllDone "left" (answers Lazy.step as tenLeft) := by decide +kernel
  have hdone' : Act.AllDone "left" (answers Lazy.step bs tenLeft) := by decide +kernel
  have hperm : (Act.asked "left" as).Perm (Act.asked "left" bs) := List.Perm.swap ..
  obtain ⟨-, hsum, horder⟩ := counters_add_up "left"
  refine ⟨⟨has, hbs, hdone, hdone', hperm⟩, horder tenLeft as bs has hbs hdone hdone' hperm, ?_⟩
  refine (hsum tenLeft bs hbs).1.trans ?_
  decide +kernel

end Turnstile.Store
