import Turnstile.Proofs.Store.Bench

/-! # Expiry, late and at once

The store in memory keeps entries that are over and looks at the clock whenever it is asked
(`Lazy.step`). The reference store does not look at the clock: it removes an entry at the moment the
clock reaches its end, and to it whatever it holds counts (`Eager.step`).

`Timed.settle` removes what is over. The reference store is in step with the store in memory, once
that is settled (`Eager.step_settle`); so over every run both give the same answers
(`lazy_eq_eager`). -/

namespace Turnstile.Store

open Turnstile.Time Turnstile.Text

/-! ### What can be done with a store -/

/-- What can be done with a store in memory, and seen of it. -/
inductive Act where
  | command (c : Command)
  /-- Plants a text without an end. -/
  | plant (key value : String)
  | contains (key : String)
  | remaining (key : String)
  | size
  | isEmpty
  | keys
  /-- Time goes by. -/
  | advance (d : Span)

namespace Act

/-- What is answered. -/
abbrev Answer : Act → Type
  | command c => c.Reply
  | plant .. | advance _ => Unit
  | contains _ | isEmpty => Bool
  | remaining _ => Option Span
  | size => Nat
  | keys => List String

/-- An entry may be put under the key. -/
def Puts : Act → String → Prop
  | command c, key => c.Puts key
  | plant k _, key => k = key
  | _, _ => False

/-- An entry may be put under the key, or the key's entry is taken away. -/
def Writes : Act → String → Prop
  | command c, key => c.Writes key
  | plant k _, key => k = key
  | _, _ => False

end Act

/-- A store beside a clock, whose readings are instants of the calendar. -/
structure Timed where
  entries : Entries
  now : Instant
  now_le_last : now ≤ Instant.last

/-- What counts under the key. -/
def Timed.live? (s : Timed) (key : String) : Option Entry := s.entries.live? s.now key

/-- The store later. -/
def Timed.advance (d : Span) (s : Timed) : Timed :=
  ⟨s.entries, s.now.after d, Instant.after_le_last _ _⟩

/-- The answers to one act after another. -/
def answers (step : (a : Act) → Timed → a.Answer × Timed) :
    List Act → Timed → List ((a : Act) × a.Answer)
  | [], _ => []
  | a :: as, s => ⟨a, (step a s).1⟩ :: answers step as (step a s).2

/-- What one act after another leads to. -/
def outcome (step : (a : Act) → Timed → a.Answer × Timed) (as : List Act) (s : Timed) : Timed :=
  as.foldl (fun s a => (step a s).2) s

/-- One act on the store in memory. -/
def Lazy.step : (a : Act) → Timed → a.Answer × Timed
  | .command c, s =>
    ((Memory.step s.now c s.entries).1, { s with entries := (Memory.step s.now c s.entries).2 })
  | .plant key value, s => ((), { s with entries := Memory.plant key value s.entries })
  | .contains key, s => (Memory.contains s.now key s.entries, s)
  | .remaining key, s => (Memory.remaining? s.now key s.entries, s)
  | .size, s => (Memory.size s.now s.entries, s)
  | .isEmpty, s => (Memory.size s.now s.entries == 0, s)
  | .keys, s => (Memory.keys s.now s.entries, s)
  | .advance d, s => ((), s.advance d)

/-! ### The reference store -/

/-- The clock has reached the entry's end. -/
def Entry.isOver (now : Instant) (e : Entry) : Bool :=
  match e.expiry with
  | none => false
  | some t => t ≤ now

/-- The entries whose end the clock has not reached. -/
def Entries.settle (now : Instant) (m : Entries) : Entries where
  toList := m.toList.filter fun p => !p.2.isOver now
  nodup := (List.Sublist.map Prod.fst List.filter_sublist).nodup m.nodup

/-- The store without the entries that are over. -/
def Timed.settle (s : Timed) : Timed := { s with entries := s.entries.settle s.now }

namespace Eager

/-- Adds to the counter under a key. -/
def add (key : String) (delta : Int) (m : Entries) : Except Failure Int64 × Entries :=
  let sumTo (current : Int64) (expiry : Option Instant) : Except Failure Int64 × Entries :=
    match Counter.add? current delta with
    | some next => (.ok next, m.put key ⟨Counter.text next, expiry⟩)
    | none => (.error Memory.sumOverflow, m)
  match m.find? key with
  | none => sumTo 0 none
  | some e =>
    match Counter.ofText? e.value with
    | some current => sumTo current e.expiry
    | none => (.error Memory.notAnInteger, m)

/-- One command, to which every entry counts. -/
def perform (now : Instant) : (c : Command) → Entries → c.Reply × Entries
  | .setIfAbsent key value lifetime, m =>
    if (m.find? key).isSome then (.ok false, m)
    else (.ok true, m.put key ⟨value, some (now.after lifetime)⟩)
  | .get key, m => (.ok ((m.find? key).map Entry.value), m)
  | .set key value lifetime, m => (.ok (), m.put key ⟨value, lifetime.map now.after⟩)
  | .incrBy key delta, m => add key delta.toInt m
  | .decrBy key delta, m =>
    if delta = Int64.minValue then (.error Memory.negationOverflow, m)
    else add key (-delta.toInt) m
  | .delete key, m => (.ok (m.find? key).isSome, m.erase key)
  | .deleteByPrefix stem, m =>
    (.ok (m.toList.countP fun p => beginsWith stem p.1), m.eraseWhere (beginsWith stem))
  | .ping, m => (.ok (), m)

/-- One act on the reference store. What ends at once is removed at once. -/
def step : (a : Act) → Timed → a.Answer × Timed
  | .command c, s =>
    ((perform s.now c s.entries).1,
      Timed.settle { s with entries := (perform s.now c s.entries).2 })
  | .plant key value, s => ((), { s with entries := s.entries.put key ⟨value, none⟩ })
  | .contains key, s => ((s.entries.find? key).isSome, s)
  | .remaining key, s => ((s.entries.find? key).bind fun e => e.expiry.map s.now.spanTo, s)
  | .size, s => (s.entries.toList.length, s)
  | .isEmpty, s => (s.entries.toList.isEmpty, s)
  | .keys, s => ((s.entries.toList.map Prod.fst).mergeSort, s)
  | .advance d, s => ((), (s.advance d).settle)

end Eager

/-! ### Settling -/

theorem Entry.isOver_eq (now : Instant) (e : Entry) : e.isOver now = !e.isLive now := by
  unfold isOver isLive
  cases e.expiry with
  | none => rfl
  | some t =>
    dsimp only
    rw [← decide_not, decide_eq_decide, Instant.not_lt]

namespace Entries

theorem eq_of_toList {m m' : Entries} (h : m.toList = m'.toList) : m = m' := by
  cases m
  cases m'
  cases h
  rfl

theorem toList_put (key : String) (e : Entry) (m : Entries) :
    (m.put key e).toList = (key, e) :: (m.erase key).toList := rfl

theorem toList_eraseWhere (test : String → Bool) (m : Entries) :
    (m.eraseWhere test).toList = m.toList.filter fun p => !test p.1 := rfl

theorem toList_settle (now : Instant) (m : Entries) : (m.settle now).toList = m.liveList now := by
  unfold settle liveList
  simp only [Entry.isOver_eq, Bool.not_not]

theorem lookup_filter {l : List (String × Entry)} (h : (l.map Prod.fst).Nodup)
    (test : Entry → Bool) (key : String) :
    (l.filter fun p => test p.2).lookup key = (l.lookup key).filter test := by
  induction l with
  | nil => rfl
  | cons p ps ih =>
    obtain ⟨k, e⟩ := p
    rw [List.map_cons, List.nodup_cons] at h
    have hps := ih h.2
    rw [List.filter_cons]
    by_cases hk : key = k
    · subst hk
      have hnone : ps.lookup key = none := by
        rw [List.lookup_eq_none_iff]
        intro q hq
        have hne : key ≠ q.1 := fun heq => h.1 (List.mem_map.mpr ⟨q, hq, heq.symm⟩)
        simpa using hne
      rw [hnone] at hps
      rw [List.lookup_cons_self]
      cases ht : test e with
      | true => simp [Option.filter, ht]
      | false =>
        rw [if_neg Bool.false_ne_true, hps]
        simp [Option.filter, ht]
    · have hkey : (key == k) = false := by simpa using hk
      cases test e <;> simpa [List.lookup_cons, hkey] using hps

theorem find?_settle (now : Instant) (m : Entries) (key : String) :
    (m.settle now).find? key = m.live? now key := by
  unfold find?
  rw [toList_settle]
  exact lookup_filter m.nodup (fun e => e.isLive now) key

theorem settle_eraseWhere (now : Instant) (test : String → Bool) (m : Entries) :
    (m.settle now).eraseWhere test = (m.eraseWhere test).settle now := by
  apply eq_of_toList
  rw [toList_settle, toList_eraseWhere, toList_settle]
  unfold liveList
  rw [toList_eraseWhere, List.filter_filter, List.filter_filter]
  simp only [Bool.and_comm]

theorem settle_erase (now : Instant) (key : String) (m : Entries) :
    (m.settle now).erase key = (m.erase key).settle now := settle_eraseWhere now _ m

/-- To settle again later is to settle later. -/
theorem settle_settle {now later : Instant} (h : now ≤ later) (m : Entries) :
    (m.settle now).settle later = m.settle later := by
  apply eq_of_toList
  rw [toList_settle, toList_settle]
  unfold liveList
  rw [toList_settle, liveList, List.filter_filter]
  apply List.filter_congr
  intro p _
  have hlive : p.2.isLive later = true → p.2.isLive now = true := Entry.isLive_of_le h
  cases hl : p.2.isLive later with
  | true => rw [hlive hl, Bool.and_self]
  | false => rw [Bool.false_and]

theorem settle_put_of_isLive {now : Instant} {e : Entry} (he : e.isLive now = true) (key : String)
    (m : Entries) : (m.settle now).put key e = (m.put key e).settle now := by
  apply eq_of_toList
  rw [toList_put, toList_settle, settle_erase, toList_settle]
  unfold liveList
  rw [toList_put, List.filter_cons, if_pos he]

theorem settle_put_of_not_isLive {now : Instant} {e : Entry} (he : e.isLive now = false)
    (key : String) (m : Entries) : (m.put key e).settle now = (m.erase key).settle now := by
  apply eq_of_toList
  rw [toList_settle, toList_settle]
  unfold liveList
  rw [toList_put, List.filter_cons, he, if_neg Bool.false_ne_true]

theorem settle_put (now : Instant) (key : String) (e : Entry) (m : Entries) :
    ((m.settle now).put key e).settle now = (m.put key e).settle now := by
  cases he : e.isLive now with
  | true => rw [settle_put_of_isLive he, settle_settle (Instant.le_refl now)]
  | false =>
    rw [settle_put_of_not_isLive he, settle_put_of_not_isLive he, settle_erase,
      settle_settle (Instant.le_refl now)]

end Entries

/-! ### One act -/

namespace Eager

theorem add_settle (now : Instant) (key : String) (delta : Int) (m : Entries) :
    (add key delta (m.settle now)).1 = (Memory.add now key delta m).1 ∧
      (add key delta (m.settle now)).2.settle now = (Memory.add now key delta m).2.settle now := by
  have hkeep : (m.settle now).settle now = m.settle now :=
    Entries.settle_settle (Instant.le_refl now) m
  unfold add Memory.add
  rw [Entries.find?_settle]
  dsimp only
  cases m.live? now key with
  | none =>
    dsimp only
    cases Counter.add? 0 delta with
    | none => exact ⟨rfl, hkeep⟩
    | some next => exact ⟨rfl, Entries.settle_put now key _ m⟩
  | some e =>
    dsimp only
    cases Counter.ofText? e.value with
    | none => exact ⟨rfl, hkeep⟩
    | some current =>
      dsimp only
      cases Counter.add? current delta with
      | none => exact ⟨rfl, hkeep⟩
      | some next => exact ⟨rfl, Entries.settle_put now key _ m⟩

theorem perform_settle (now : Instant) (c : Command) (m : Entries) :
    (perform now c (m.settle now)).1 = (Memory.step now c m).1 ∧
      (perform now c (m.settle now)).2.settle now = (Memory.step now c m).2.settle now := by
  have hkeep : (m.settle now).settle now = m.settle now :=
    Entries.settle_settle (Instant.le_refl now) m
  cases c with
  | setIfAbsent key value lifetime =>
    simp only [perform, Memory.step]
    rw [Entries.find?_settle]
    cases m.live? now key with
    | none => exact ⟨rfl, Entries.settle_put now key _ m⟩
    | some e => exact ⟨rfl, hkeep⟩
  | get key =>
    simp only [perform, Memory.step]
    rw [Entries.find?_settle]
    exact ⟨rfl, hkeep⟩
  | set key value lifetime => exact ⟨rfl, Entries.settle_put now key _ m⟩
  | incrBy key delta => exact add_settle now key delta.toInt m
  | decrBy key delta =>
    simp only [perform, Memory.step]
    split
    · exact ⟨rfl, hkeep⟩
    · exact add_settle now key (-delta.toInt) m
  | delete key =>
    simp only [perform, Memory.step]
    rw [Entries.find?_settle, Entries.settle_erase]
    exact ⟨rfl, Entries.settle_settle (Instant.le_refl now) _⟩
  | deleteByPrefix stem =>
    simp only [perform, Memory.step]
    rw [Entries.toList_settle, Entries.settle_eraseWhere]
    exact ⟨rfl, Entries.settle_settle (Instant.le_refl now) _⟩
  | ping => exact ⟨rfl, hkeep⟩

theorem keys_settle (now : Instant) (m : Entries) :
    ((m.settle now).toList.map Prod.fst).mergeSort = Memory.keys now m := by
  rw [Entries.toList_settle]
  unfold Memory.keys Entries.sorted
  rw [List.map_mergeSort]
  intro p _ q _
  rfl

/-- **In step.** The reference store and the store in memory, once settled, act alike. -/
theorem step_settle (a : Act) (s : Timed) :
    step a s.settle = ((Lazy.step a s).1, (Lazy.step a s).2.settle) := by
  cases a with
  | command c =>
    obtain ⟨hanswer, hstore⟩ := perform_settle s.now c s.entries
    unfold step Lazy.step Timed.settle
    dsimp only
    rw [hanswer, hstore]
  | plant key value =>
    unfold step Lazy.step Timed.settle Memory.plant
    dsimp only
    rw [Entries.settle_put_of_isLive rfl]
  | contains key =>
    unfold step Lazy.step Timed.settle
    dsimp only
    rw [Entries.find?_settle]
    rfl
  | remaining key =>
    unfold step Lazy.step Timed.settle
    dsimp only
    rw [Entries.find?_settle]
    rfl
  | size =>
    unfold step Lazy.step Timed.settle
    dsimp only
    rw [Entries.toList_settle]
    rfl
  | isEmpty =>
    unfold step Lazy.step Timed.settle
    dsimp only
    rw [Entries.toList_settle, Memory.size]
    cases s.entries.liveList s.now <;> rfl
  | keys =>
    unfold step Lazy.step Timed.settle
    dsimp only
    rw [keys_settle]
  | advance d =>
    have hle : s.now ≤ s.now.after d := Instant.le_after s.now_le_last d
    unfold step Lazy.step Timed.settle Timed.advance
    dsimp only
    rw [Entries.settle_settle hle]

end Eager

/-! ### Runs -/

/-- The key holds an entry whose end the clock has reached. -/
def Timed.IsOver (key : String) (s : Timed) : Prop :=
  ∃ e, s.entries.find? key = some e ∧ e.isOver s.now = true

theorem Timed.IsOver.live? {key : String} {s : Timed} (h : s.IsOver key) :
    s.entries.live? s.now key = none := by
  obtain ⟨e, hfind, hover⟩ := h
  rw [Entries.live?_eq_none_iff]
  intro e' he'
  rw [hfind, Option.some.injEq] at he'
  rw [← he']
  rw [Entry.isOver_eq, Bool.not_eq_true'] at hover
  exact hover

/-- How the store in memory passes over what is over. -/
structure Unseen (s : Timed) : Prop where
  delete : ∀ key, s.IsOver key → (Lazy.step (.command (.delete key)) s).1 = .ok false
  deleteByPrefix : ∀ stem, (Lazy.step (.command (.deleteByPrefix stem)) s).1 =
    .ok ((Lazy.step .keys s).1.countP (beginsWith stem))
  /-- A counter begins again at zero, and without an end. -/
  incrBy : ∀ key delta, s.IsOver key → (Lazy.step (.command (.incrBy key delta)) s).1 = .ok delta ∧
    (Lazy.step (.command (.incrBy key delta)) s).2.entries.find? key =
      some ⟨Counter.text delta, none⟩
  setIfAbsent : ∀ key value lifetime, s.IsOver key →
    (Lazy.step (.command (.setIfAbsent key value lifetime)) s).1 = .ok true ∧
      (Lazy.step (.command (.setIfAbsent key value lifetime)) s).2.entries.find? key =
        some ⟨value, some (s.now.after lifetime)⟩
  /-- Unless something new is put there, the key is empty for ever. -/
  gone : ∀ key as, s.IsOver key → (∀ a ∈ as, ¬ a.Puts key) →
    (Lazy.step (.contains key) (outcome Lazy.step as s)).1 = false ∧
      (Lazy.step (.command (.get key)) (outcome Lazy.step as s)).1 = .ok none

theorem Counter.add?_zero (delta : Int64) : Counter.add? 0 delta.toInt = some delta := by
  have hlower := delta.le_toInt
  have hupper := delta.toInt_lt
  unfold Counter.add?
  dsimp only
  rw [show (0 : Int64).toInt = 0 from rfl, Int.zero_add, if_pos ⟨by omega, by omega⟩,
    Int64.ofInt_toInt]

theorem Lazy.live?_step {a : Act} {key : String} (ha : ¬ a.Puts key) {s : Timed}
    (hs : s.entries.live? s.now key = none) :
    (step a s).2.entries.live? (step a s).2.now key = none := by
  cases a with
  | command c =>
    rw [Entries.live?_eq_none_iff] at hs ⊢
    intro e he
    rcases Memory.find?_step_of_not_puts ha s.now s.entries with hnone | hsame
    · exact absurd (hnone.symm.trans he) (by simp)
    · exact hs e (hsame.symm.trans he)
  | plant k value =>
    unfold step Memory.plant
    dsimp only
    rw [Entries.live?_put, if_neg (Ne.symm ha)]
    exact hs
  | advance d =>
    rw [Entries.live?_eq_none_iff] at hs ⊢
    intro e he
    have hle : s.now ≤ s.now.after d := Instant.le_after s.now_le_last d
    have hover := hs e he
    cases hlive : e.isLive (s.now.after d) with
    | false => exact hlive
    | true =>
      rw [Entry.isLive_of_le hle hlive] at hover
      cases hover
  | contains k => exact hs
  | remaining k => exact hs
  | size => exact hs
  | isEmpty => exact hs
  | keys => exact hs

theorem Lazy.live?_outcome {as : List Act} {key : String} (has : ∀ a ∈ as, ¬ a.Puts key) {s : Timed}
    (hs : s.entries.live? s.now key = none) :
    (outcome step as s).entries.live? (outcome step as s).now key = none := by
  induction as generalizing s with
  | nil => exact hs
  | cons a as ih =>
    rw [List.forall_mem_cons] at has
    exact ih has.2 (live?_step has.1 hs)

theorem unseen (s : Timed) : Unseen s where
  delete key h := by
    show Except.ok (s.entries.live? s.now key).isSome = _
    rw [h.live?]
    rfl
  deleteByPrefix stem := by
    show Except.ok (s.entries.countWith s.now stem) =
      Except.ok ((Memory.keys s.now s.entries).countP _)
    unfold Entries.countWith Memory.keys Entries.sorted
    rw [List.countP_map, (List.mergeSort_perm _ _).countP_eq]
    rfl
  incrBy key delta h := by
    have hrun : Lazy.step (.command (.incrBy key delta)) s =
        (.ok delta, { s with entries := s.entries.put key ⟨Counter.text delta, none⟩ }) := by
      unfold Lazy.step Memory.step Memory.add
      dsimp only
      rw [h.live?]
      dsimp only
      rw [Counter.add?_zero]
    rw [hrun]
    refine ⟨rfl, ?_⟩
    rw [Entries.find?_put, if_pos rfl]
  setIfAbsent key value lifetime h := by
    unfold Lazy.step Memory.step
    dsimp only
    rw [h.live?]
    refine ⟨rfl, ?_⟩
    rw [Entries.find?_put, if_pos rfl]
  gone key as h has := by
    have hnone := Lazy.live?_outcome has h.live?
    constructor
    · show ((outcome Lazy.step as s).entries.live? _ key).isSome = false
      rw [hnone]
      rfl
    · show Except.ok (((outcome Lazy.step as s).entries.live? _ key).map Entry.value) = _
      rw [hnone]
      rfl

/-- **In step over a run.** -/
theorem answers_settle (as : List Act) (s : Timed) :
    answers Eager.step as s.settle = answers Lazy.step as s := by
  induction as generalizing s with
  | nil => rfl
  | cons a as ih =>
    unfold answers
    rw [Eager.step_settle, ih]

/-- **Late expiry is expiry at once.** Over every run, a store that keeps what is over and looks at
the clock gives the answers of a store that removes an entry when the clock reaches its end. -/
theorem lazy_eq_eager (as : List Act) (s : Timed) :
    answers Lazy.step as s = answers Eager.step as s.settle ∧ Unseen (outcome Lazy.step as s) :=
  ⟨(answers_settle as s).symm, unseen _⟩

end Turnstile.Store
