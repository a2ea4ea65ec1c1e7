import Turnstile.Proofs.Metrics.Conservation
import Turnstile.Proofs.Store.Counter
import Turnstile.Proofs.Store.Removal

/-! # Programs that keep to their keys

`Command.About K` says that a command has to do with keys of `K` only: it reads no others and writes no
others. Such a command cannot tell stores apart that agree on `K`, and leaves them in agreement
(`Memory.step_congr`); a removal by a stem, which answers how many entries it took away, counts keys of
`K` only. What holds of one command holds of a program: on benches that agree on `K` it comes to the
same result, counts the same events and makes the same calls (`Bench.run_congr`).

So of two programs that keep to different keys neither sees what the other one does. In either order
they come to what they come to alone, and every key holds the same afterwards (`Bench.run_comm`). Stores
that hold the same under every key show the same to everyone, at any time (`Entries.listing_eq`). -/

namespace Turnstile.Store

open Turnstile.Time Turnstile.Text

variable {K : String → Prop} {m m' : Entries} {now : Instant} {key : String}

/-! ### Stores that agree -/

namespace Entries

/-- The stores hold the same under the keys. -/
def AgreeOn (K : String → Prop) (m m' : Entries) : Prop := ∀ key, K key → m.find? key = m'.find? key

theorem AgreeOn.live? (h : AgreeOn K m m') (hkey : K key) (now : Instant) :
    m.live? now key = m'.live? now key := by
  rw [Entries.live?, Entries.live?, h key hkey]

theorem AgreeOn.put (h : AgreeOn K m m') (key : String) (e : Entry) :
    AgreeOn K (m.put key e) (m'.put key e) := by
  intro other hother
  rw [find?_put, find?_put, h other hother]

theorem AgreeOn.eraseWhere (h : AgreeOn K m m') (test : String → Bool) :
    AgreeOn K (m.eraseWhere test) (m'.eraseWhere test) := by
  intro other hother
  rw [find?_eraseWhere, find?_eraseWhere, h other hother]

theorem mem_toList_iff {p : String × Entry} : p ∈ m.toList ↔ m.find? p.1 = some p.2 := by
  obtain ⟨k, e⟩ := p
  constructor
  · intro hmem
    -- Of two entries under one key only the first would be found, but there are no two.
    obtain ⟨before, after, hlist⟩ := List.append_of_mem hmem
    have hnodup := m.nodup
    rw [hlist, List.map_append, List.map_cons, List.nodup_append] at hnodup
    rw [find?, hlist, List.lookup_eq_some_iff]
    refine ⟨before, after, rfl, fun q hq => ?_⟩
    have hne : q.1 ≠ k := hnodup.2.2 q.1 (List.mem_map_of_mem hq) k List.mem_cons_self
    exact bne_iff_ne.mpr hne.symm
  · intro hfind
    obtain ⟨before, after, hlist, -⟩ := List.lookup_eq_some_iff.mp hfind
    rw [hlist]
    exact List.mem_append_right _ List.mem_cons_self

theorem mem_liveList_iff {p : String × Entry} : p ∈ m.liveList now ↔ m.live? now p.1 = some p.2 := by
  rw [← toList_settle, mem_toList_iff, find?_settle]

theorem mem_keys_iff : key ∈ (Memory.keys now m).toFinset ↔ (m.live? now key).isSome = true := by
  rw [Memory.toFinset_keys, List.mem_toFinset, List.mem_map, Option.isSome_iff_exists]
  constructor
  · rintro ⟨p, hp, rfl⟩
    exact ⟨p.2, mem_liveList_iff.mp hp⟩
  · rintro ⟨e, he⟩
    exact ⟨(key, e), mem_liveList_iff.mpr he, rfl⟩

theorem nodup_liveList (m : Entries) (now : Instant) : ((m.liveList now).map Prod.fst).Nodup :=
  (List.Sublist.map Prod.fst List.filter_sublist).nodup m.nodup

theorem listing_eq (h : ∀ key, m.live? now key = m'.live? now key) :
    Memory.listing now m = Memory.listing now m' := by
  have hperm : (m.liveList now).Perm (m'.liveList now) := by
    refine (List.perm_ext_iff_of_nodup (m.nodup_liveList now).of_map
      (m'.nodup_liveList now).of_map).mpr fun p => ?_
    rw [mem_liveList_iff, mem_liveList_iff, h]
  have hsorted : ∀ l : List (String × Entry),
      (l.mergeSort fun p q => p.1 ≤ q.1).Pairwise fun p q => p.1 ≤ q.1 := by
    intro l
    have htrans : ∀ p q r : String × Entry,
        decide (p.1 ≤ q.1) = true → decide (q.1 ≤ r.1) = true → decide (p.1 ≤ r.1) = true := by
      intro p q r hpq hqr
      exact decide_eq_true (String.le_trans (of_decide_eq_true hpq) (of_decide_eq_true hqr))
    have htotal : ∀ p q : String × Entry, (decide (p.1 ≤ q.1) || decide (q.1 ≤ p.1)) = true := by
      intro p q
      simpa using String.le_total p.1 q.1
    simpa using List.pairwise_mergeSort htrans htotal l
  -- Where the keys are distinct the order of the keys leaves no choice.
  have hsame : m.sorted now = m'.sorted now := by
    refine List.Perm.eq_of_pairwise (fun p q hp hq hle hge => ?_) (hsorted _) (hsorted _)
      ((List.mergeSort_perm _ _).trans (hperm.trans (List.mergeSort_perm _ _).symm))
    have hkey : p.1 = q.1 := String.le_antisymm hle hge
    have hp' := mem_liveList_iff.mp ((List.mergeSort_perm _ _).mem_iff.mp hp)
    have hq' := mem_liveList_iff.mp ((List.mergeSort_perm _ _).mem_iff.mp hq)
    rw [hkey, h, hq'] at hp'
    exact Prod.ext hkey (Option.some.inj hp').symm
  rw [Memory.listing, Memory.listing, hsame]

end Entries

open Entries

/-! ### Commands -/

/-- The command has to do with these keys only. -/
def Command.About (K : String → Prop) : Command → Prop
  | setIfAbsent k _ _ | get k | set k _ _ | incrBy k _ | decrBy k _ | delete k => K k
  | deleteByPrefix stem => ∀ key, beginsWith stem key = true → K key
  | ping => True

theorem Command.About.of_writes {c : Command} (h : c.About K) (hc : c.Writes key) : K key := by
  rcases hc with hput | hremove
  · cases c with
    | setIfAbsent k value lifetime | set k value lifetime | incrBy k delta | decrBy k delta =>
      exact (show k = key from hput) ▸ h
    | _ => exact absurd hput id
  · cases c with
    | delete k => exact (show k = key from hremove) ▸ h
    | deleteByPrefix stem => exact h key hremove
    | _ => exact absurd hremove id

namespace Memory

theorem add_congr (h : AgreeOn K m m') (hkey : K key) (now : Instant) (delta : Int) :
    (add now key delta m).1 = (add now key delta m').1 ∧
      AgreeOn K (add now key delta m).2 (add now key delta m').2 := by
  rw [add_eq, add_eq, h.live? hkey]
  cases Counter.value? (m'.live? now key) with
  | none => exact ⟨rfl, h⟩
  | some v =>
    dsimp only
    cases Counter.add? v delta with
    | none => exact ⟨rfl, h⟩
    | some sum => exact ⟨rfl, h.put key _⟩

/-- **A command sees its own keys only.** -/
theorem step_congr {c : Command} (hc : c.About K) (h : AgreeOn K m m') (now : Instant) :
    (step now c m).1 = (step now c m').1 ∧ AgreeOn K (step now c m).2 (step now c m').2 := by
  cases c with
  | setIfAbsent k value lifetime =>
    have hlive := h.live? hc now
    simp only [step, hlive]
    cases m'.live? now k with
    | none => exact ⟨rfl, h.put k _⟩
    | some e => exact ⟨rfl, h⟩
  | get k =>
    have hlive := h.live? hc now
    simp only [step, hlive]
    exact ⟨trivial, h⟩
  | set k value lifetime => exact ⟨rfl, h.put k _⟩
  | incrBy k delta => exact add_congr h hc now delta.toInt
  | decrBy k delta =>
    simp only [step]
    split
    · exact ⟨rfl, h⟩
    · exact add_congr h hc now (-delta.toInt)
  | delete k =>
    have hlive := h.live? hc now
    simp only [step, hlive]
    exact ⟨trivial, h.eraseWhere _⟩
  | deleteByPrefix stem =>
    refine ⟨?_, h.eraseWhere _⟩
    have hkeys : (keys now m).toFinset.filter (fun key => beginsWith stem key = true) =
        (keys now m').toFinset.filter fun key => beginsWith stem key = true := by
      ext key
      rw [Finset.mem_filter, Finset.mem_filter, mem_keys_iff, mem_keys_iff]
      exact and_congr_left fun hstem => by rw [h.live? (hc key hstem)]
    rw [answer_deleteByPrefix, answer_deleteByPrefix, hkeys]
  | ping => exact ⟨rfl, h⟩

end Memory

/-! ### Programs -/

namespace Bench

variable {α β σ : Type} {b b' : Bench Entries}

/-- How often a program calls code of its caller on the bench. -/
def called (store : Backend σ) : Program α → Bench σ → Nat
  | .done _, _ => 0
  | .ask c next, b => called store (next (perform store c b).1) (perform store c b).2
  | .emit e next, b => (if e = .called then 1 else 0) + called store next (note e b)

theorem calls_run (store : Backend σ) (p : Program α) (b : Bench σ) :
    (b.run store p).2.calls = b.calls + b.called store p := by
  induction p generalizing b with
  | done a => rfl
  | ask c next ih =>
    have hrest := ih (perform store c b).1 (perform store c b).2
    rw [calls_perform] at hrest
    exact hrest
  | emit e next ih =>
    have hrest := ih (note e b)
    have hnote : (note e b).calls = b.calls + if e = .called then 1 else 0 := by
      cases e <;> simp [note]
    rw [hnote, Nat.add_assoc] at hrest
    exact hrest

/-- The benches differ in nothing that has to do with the keys: they have the same time, the same
commands fail on them, and their stores hold the same under the keys. -/
structure AgreeOn (K : String → Prop) (b b' : Bench Entries) : Prop where
  now : b.now = b'.now
  failing : b.failing = b'.failing
  store : Entries.AgreeOn K b.store b'.store

theorem AgreeOn.perform (h : AgreeOn K b b') {c : Command} (hc : c.About K) :
    (perform Memory.backend c b).1 = (perform Memory.backend c b').1 ∧
      AgreeOn K (perform Memory.backend c b).2 (perform Memory.backend c b').2 := by
  cases hf : b'.failing c.kind with
  | some failure =>
    rw [perform_of_failing hf, perform_of_failing ((congrFun h.failing _).trans hf)]
    exact ⟨rfl, h⟩
  | none =>
    rw [perform_of_ready hf, perform_of_ready ((congrFun h.failing _).trans hf), h.now]
    obtain ⟨hreply, hstore⟩ := Memory.step_congr hc h.store b'.now
    exact ⟨hreply, rfl, h.failing, hstore⟩

theorem AgreeOn.note (h : AgreeOn K b b') (e : Event) : AgreeOn K (note e b) (note e b') := by
  refine ⟨?_, ?_, ?_⟩
  · rw [now_note, now_note, h.now]
  · rw [failing_note, failing_note, h.failing]
  · rw [store_note, store_note]
    exact h.store

/-- **A program sees its own keys only.** -/
theorem run_congr {p : Program α} (hp : p.Within (Command.About K)) (h : AgreeOn K b b') :
    (b.run Memory.backend p).1 = (b'.run Memory.backend p).1 ∧
      AgreeOn K (b.run Memory.backend p).2 (b'.run Memory.backend p).2 ∧
      b.counted Memory.backend p = b'.counted Memory.backend p ∧
      b.called Memory.backend p = b'.called Memory.backend p := by
  induction p generalizing b b' with
  | done a => exact ⟨rfl, h, rfl, rfl⟩
  | ask c next ih =>
    obtain ⟨hreply, hafter⟩ := h.perform hp.1
    have hrun : ∀ b, run Memory.backend (.ask c next) b =
        (perform Memory.backend c b).2.run Memory.backend
          (next (perform Memory.backend c b).1) := fun _ => rfl
    rw [hrun, hrun, counted, counted, called, called, hreply]
    exact ih _ (hp.2 _) hafter
  | emit e next ih =>
    obtain ⟨hanswer, hafter, hcounted, hcalled⟩ := ih hp (h.note e)
    exact ⟨hanswer, hafter, congrArg (e.counters ++ ·) hcounted, congrArg (_ + ·) hcalled⟩

theorem find?_run_of_about {p : Program α} (hp : p.Within (Command.About K)) (hkey : ¬ K key)
    (b : Bench Entries) :
    (b.run Memory.backend p).2.store.find? key = b.store.find? key :=
  find?_run (hp.mono fun _ hc hwrites => hkey (hc.of_writes hwrites)) b

theorem agreeOn_run {L : String → Prop} {p : Program α} (hp : p.Within (Command.About L))
    (hKL : ∀ key, K key → ¬ L key) (b : Bench Entries) :
    AgreeOn K (b.run Memory.backend p).2 b where
  now := now_run _ _ _
  failing := failing_run _ _ _
  store key hkey := find?_run_of_about hp (hKL key hkey) b

/-- The bench after two programs, one after the other. -/
def afterBoth (p : Program α) (q : Program β) (b : Bench Entries) : Bench Entries :=
  ((b.run Memory.backend p).2.run Memory.backend q).2

/-- It makes no difference which of the programs runs first. -/
structure Commute (b : Bench Entries) (p : Program α) (q : Program β) : Prop where
  /-- Each program comes to what it comes to alone. -/
  answer : ((b.run Memory.backend q).2.run Memory.backend p).1 = (b.run Memory.backend p).1
  answer' : ((b.run Memory.backend p).2.run Memory.backend q).1 = (b.run Memory.backend q).1
  /-- Each program makes the calls that it makes alone. -/
  calls : ∃ n n', (b.run Memory.backend p).2.calls = b.calls + n ∧
    (b.run Memory.backend q).2.calls = b.calls + n' ∧
    (afterBoth p q b).calls = b.calls + n + n' ∧ (afterBoth q p b).calls = b.calls + n' + n
  value : ∀ c, (afterBoth p q b).metrics.value c = (afterBoth q p b).metrics.value c
  live? : ∀ t key, (afterBoth p q b).store.live? t key = (afterBoth q p b).store.live? t key
  listing : ∀ t, Memory.listing t (afterBoth p q b).store = Memory.listing t (afterBoth q p b).store

/-- **Programs with different keys commute.** -/
theorem run_comm {L : String → Prop} {p : Program α} {q : Program β}
    (hp : p.Within (Command.About K)) (hq : q.Within (Command.About L))
    (hKL : ∀ key, K key → ¬ L key) (b : Bench Entries) : Commute b p q := by
  -- What either program finds under its keys is what it would find if it were alone.
  obtain ⟨hanswer, hleft, hcounted, hcalled⟩ := run_congr hp (agreeOn_run hq hKL b)
  obtain ⟨hanswer', hleft', hcounted', hcalled'⟩ :=
    run_congr hq (agreeOn_run hp (fun key hL hK => hKL key hK hL) b)
  have hfind : ∀ key, (afterBoth p q b).store.find? key = (afterBoth q p b).store.find? key := by
    intro key
    by_cases hK : K key
    · exact (find?_run_of_about hq (hKL key hK) _).trans (hleft.store key hK).symm
    · by_cases hL : L key
      · exact (hleft'.store key hL).trans (find?_run_of_about hp hK _).symm
      · unfold afterBoth
        rw [find?_run_of_about hq hL, find?_run_of_about hp hK, find?_run_of_about hp hK,
          find?_run_of_about hq hL]
  have hlive : ∀ t key, (afterBoth p q b).store.live? t key = (afterBoth q p b).store.live? t key := by
    intro t key
    rw [Entries.live?, Entries.live?, hfind]
  refine ⟨hanswer, hanswer', ⟨_, _, calls_run _ p b, calls_run _ q b, ?_, ?_⟩, fun c => ?_, hlive,
    fun t => Entries.listing_eq (hlive t)⟩
  · rw [afterBoth, calls_run, calls_run, hcalled']
  · rw [afterBoth, calls_run, calls_run, hcalled]
  · unfold afterBoth
    rw [value_run, value_run, value_run, value_run, hcounted, hcounted', Nat.add_right_comm]

end Bench

end Turnstile.Store
