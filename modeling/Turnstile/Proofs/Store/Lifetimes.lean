import Turnstile.Proofs.Store.Expiry

/-! # Lifetimes

The clock and the ends of lifetimes saturate alike, so what is put under a key for a lifetime is there
as long as the clock, after all the time that went by, is before the end, wherever either of them had
to fall back on the last instant.

* `Lazy.now_outcome`: the clock after a run is the one before it, later by all the time that went by
  in the run.
* `Lazy.live?_outcome_of_stores`: what is put under a key for a lifetime counts from then on until the
  clock reaches the end of the lifetime. When both are the last instant, that has happened.
* `Lasts`: how this is seen by one who asks for the key. What is over is over for good.
* `saturates_alike` puts these together. -/

namespace Turnstile.Store

open Turnstile.Time

/-! ### The clock over a run -/

/-- The time that goes by with an act. -/
def Act.passing : Act → Span
  | advance d => d
  | _ => 0

/-- The time that goes by in a run. -/
def elapsed (as : List Act) : Span := (as.map Act.passing).sum

theorem elapsed_advance (parts : List Span) : elapsed (parts.map .advance) = parts.sum := by
  have hparts : Act.passing ∘ Act.advance = id := rfl
  rw [elapsed, List.map_map, hparts, List.map_id]

namespace Lazy

variable {key value : String} {lifetime : Span} {a : Act} {as : List Act} {s : Timed}

theorem now_step (a : Act) (s : Timed) : (step a s).2.now = s.now.after a.passing := by
  cases a with
  | advance d => rfl
  | _ => exact (Instant.after_zero s.now_le_last).symm

/-- **The clock** moves by the time that goes by, in however many parts, and whatever is done
meanwhile. -/
theorem now_outcome (as : List Act) (s : Timed) :
    (outcome step as s).now = s.now.after (elapsed as) := by
  induction as generalizing s with
  | nil => exact (Instant.after_zero s.now_le_last).symm
  | cons a as ih =>
    calc (outcome step as (step a s).2).now
        = (step a s).2.now.after (elapsed as) := ih _
      _ = (s.now.after a.passing).after (elapsed as) := by rw [now_step]
      _ = s.now.after (a.passing + elapsed as) := Instant.after_after ..

theorem find?_step (h : ¬ a.Writes key) (s : Timed) :
    (step a s).2.entries.find? key = s.entries.find? key := by
  cases a with
  | command c => exact Memory.find?_step h s.now s.entries
  | plant k value => exact (Entries.find?_put ..).trans (if_neg (Ne.symm h))
  | _ => rfl

theorem find?_outcome (h : ∀ b ∈ as, ¬ b.Writes key) (s : Timed) :
    (outcome step as s).entries.find? key = s.entries.find? key := by
  induction as generalizing s with
  | nil => rfl
  | cons a as ih =>
    rw [List.forall_mem_cons] at h
    exact (ih h.2 _).trans (find?_step h.1 s)

end Lazy

/-! ### Lifetimes -/

/-- The act puts a text under the key for a lifetime; if it is one that takes only a key without an
entry that counts, it was accepted. -/
inductive Act.Stores (key value : String) (lifetime : Span) (s : Timed) : Act → Prop where
  | set : Stores key value lifetime s (.command (.set key value (some lifetime)))
  | setIfAbsent
      (h : (Lazy.step (.command (.setIfAbsent key value lifetime)) s).1 = .ok true) :
      Stores key value lifetime s (.command (.setIfAbsent key value lifetime))

namespace Lazy

variable {key value : String} {lifetime : Span} {a : Act} {as : List Act} {s : Timed}

theorem now_outcome_of_stores (h : a.Stores key value lifetime s) :
    (outcome step (a :: as) s).now = s.now.after (elapsed as) := by
  have hnow : (step a s).2.now = s.now := by cases h <;> rfl
  rw [← hnow]
  exact now_outcome as _

theorem setIfAbsent_iff :
    (step (.command (.setIfAbsent key value lifetime)) s).1 = .ok true ↔ s.live? key = none := by
  unfold step Memory.step Timed.live?
  dsimp only
  cases s.entries.live? s.now key with
  | none => exact iff_of_true rfl rfl
  | some e => exact iff_of_false nofun nofun

theorem find?_of_stores (h : a.Stores key value lifetime s) :
    (step a s).2.entries.find? key = some ⟨value, some (s.now.after lifetime)⟩ := by
  cases h with
  | set => exact (Entries.find?_put ..).trans (if_pos rfl)
  | setIfAbsent h =>
    -- it was accepted, so it found nothing that counts
    have hnone : s.entries.live? s.now key = none := setIfAbsent_iff.mp h
    unfold step Memory.step
    simp only [hnone]
    exact (Entries.find?_put ..).trans (if_pos rfl)

theorem live?_outcome_of_stores (h : a.Stores key value lifetime s)
    (has : ∀ b ∈ as, ¬ b.Writes key) :
    (outcome step (a :: as) s).live? key =
      if s.now.after (elapsed as) < s.now.after lifetime then
        some ⟨value, some (s.now.after lifetime)⟩
      else none := by
  have hfind : (outcome step (a :: as) s).entries.find? key =
      some ⟨value, some (s.now.after lifetime)⟩ :=
    (find?_outcome has _).trans (find?_of_stores h)
  unfold Timed.live? Entries.live?
  rw [hfind, now_outcome_of_stores h, Option.filter_some]
  simp only [Entry.isLive, decide_eq_true_eq]

end Lazy

/-! ### What is seen -/

/-- The clock reads `now`, and one who asks for the key sees a text until `ends`, and nothing from
then on. -/
structure Lasts (key value : String) (now ends : Instant) (s : Timed) : Prop where
  clock : s.now = now
  contains_iff : (Lazy.step (.contains key) s).1 = true ↔ now < ends
  get : (Lazy.step (.command (.get key)) s).1 = .ok (if now < ends then some value else none)
  /-- The time that is left is what the clock must go on to come to the end, to the nanosecond. -/
  remaining_iff : ∀ left, (Lazy.step (.remaining key) s).1 = some left ↔
    now < ends ∧ now + left = ends
  setIfAbsent_iff : ∀ other lifetime,
    (Lazy.step (.command (.setIfAbsent key other lifetime)) s).1 = .ok true ↔ ¬ now < ends
  /-- What is over stays over, unless something new is put there. -/
  gone : ¬ now < ends → ∀ as, (∀ a ∈ as, ¬ a.Puts key) →
    (Lazy.step (.contains key) (outcome Lazy.step as s)).1 = false

theorem lasts_of_live? {key value : String} {ends : Instant} {s : Timed}
    (h : s.live? key = if s.now < ends then some ⟨value, some ends⟩ else none) :
    Lasts key value s.now ends s where
  clock := rfl
  contains_iff := by
    show (s.live? key).isSome = true ↔ _
    rw [h]
    split
    · next hnow => exact iff_of_true rfl hnow
    · next hnow => exact iff_of_false nofun hnow
  get := by
    show Except.ok ((s.live? key).map Entry.value) = _
    rw [h]
    split <;> rfl
  remaining_iff left := by
    show (s.live? key).bind (fun e => e.expiry.map s.now.spanTo) = some left ↔ _
    rw [h]
    split
    · next hnow =>
      rw [and_iff_right hnow, ← Instant.spanTo_eq_iff hnow]
      exact Option.some_inj
    · next hnow => exact iff_of_false nofun fun hleft => hnow hleft.1
  setIfAbsent_iff other lifetime := by
    rw [Lazy.setIfAbsent_iff, h]
    split
    · next hnow => exact iff_of_false nofun (not_not_intro hnow)
    · next hnow => exact iff_of_true rfl hnow
  gone hnow as has := by
    have hnone : s.live? key = none := by rw [h, if_neg hnow]
    show ((outcome Lazy.step as s).entries.live? _ key).isSome = false
    rw [Lazy.live?_outcome has hnone]
    rfl

/-- **The clock and lifetimes saturate alike.** Time takes the clock on to the exact instant or to
the last one, in parts as at once, and no time takes it back. What is put under a key for a lifetime
is there as long as the reading is before the end that saturates in the same way, also if either is
the last instant; and then it is over for good. -/
theorem saturates_alike (s : Timed) :
    (∀ d, (Lazy.step (.advance d) s).2.now = min (s.now + d) .last) ∧
      (∀ parts : List Span, (outcome Lazy.step (parts.map .advance) s).now =
        (Lazy.step (.advance parts.sum) s).2.now) ∧
      (∀ d e, s.now ≤ s.now.after d ∧ s.now.after d ≤ s.now.after (d + e)) ∧
      ∀ key value lifetime a, a.Stores key value lifetime s → ∀ as, (∀ b ∈ as, ¬ b.Writes key) →
        Lasts key value (min (s.now + elapsed as) .last) (min (s.now + lifetime) .last)
          (outcome Lazy.step (a :: as) s) := by
  refine ⟨fun d => Instant.after_eq s.now d, fun parts => ?_,
    Instant.le_after_add s.now_le_last, fun key value lifetime a ha as has => ?_⟩
  · rw [Lazy.now_outcome, elapsed_advance]
    rfl
  · have hlive := Lazy.live?_outcome_of_stores ha has
    rw [← Lazy.now_outcome_of_stores ha] at hlive
    rw [← Instant.after_eq, ← Instant.after_eq, ← Lazy.now_outcome_of_stores ha]
    exact lasts_of_live? hlive

/-- Half a second before the calendar ends. -/
def lastEvening : Timed where
  entries := .empty
  now := ⟨(Span.ofParts 8210266876799 499999999).nanos⟩
  now_le_last := by decide

/-- A lock is taken for as long as can be said. After 300 ms it is left 200 ms, after 300 ms more it
is open, and an hour later it is no less so. -/
theorem saturates_alike_lastEvening :
    let lifetime := Span.ofSeconds 0xffffffffffffffff
    let lock := Act.command (.setIfAbsent "lock" "1" lifetime)
    let early : List Act := [.advance (.ofMillis 300), .command (.get "lock")]
    let late : List Act := early ++ [.advance (.ofMillis 300)]
    let later : List Act := [.advance (.ofSeconds 3600), .command (.delete "lock")]
    (lock.Stores "lock" "1" lifetime lastEvening ∧ (∀ b ∈ late, ¬ b.Writes "lock") ∧
        ∀ b ∈ later, ¬ b.Puts "lock") ∧
      (Lazy.step (.remaining "lock") (outcome Lazy.step (lock :: early) lastEvening)).1 =
        some (.ofMillis 200) ∧
      (Lazy.step (.command (.get "lock")) (outcome Lazy.step (lock :: late) lastEvening)).1 =
        .ok none ∧
      (Lazy.step (.contains "lock")
        (outcome Lazy.step later (outcome Lazy.step (lock :: late) lastEvening))).1 = false := by
  intro lifetime lock early late later
  have hlock : lock.Stores "lock" "1" lifetime lastEvening :=
    .setIfAbsent (Lazy.setIfAbsent_iff.mpr rfl)
  have hlate : ∀ b ∈ late, ¬ b.Writes "lock" := by
    simp only [late, early, List.cons_append, List.nil_append, List.forall_mem_cons]
    exact ⟨nofun, fun h => h.elim id id, nofun, nofun⟩
  have hearly : ∀ b ∈ early, ¬ b.Writes "lock" := fun b hb => hlate b (List.mem_append_left _ hb)
  have hlater : ∀ b ∈ later, ¬ b.Puts "lock" := by
    simp only [later, List.forall_mem_cons]
    exact ⟨nofun, nofun, nofun⟩
  obtain ⟨-, -, -, hlasts⟩ := saturates_alike lastEvening
  have hthere := hlasts "lock" "1" lifetime lock hlock early hearly
  have hover := hlasts "lock" "1" lifetime lock hlock late hlate
  have hend : ¬ min (lastEvening.now + elapsed late) .last <
      min (lastEvening.now + lifetime) .last := by decide +kernel
  refine ⟨⟨hlock, hlate, hlater⟩, (hthere.remaining_iff _).mpr ⟨?_, ?_⟩, ?_,
    hover.gone hend later hlater⟩
  · decide +kernel
  · decide +kernel
  · rw [hover.get, if_neg hend]

end Turnstile.Store
