import Mathlib.Algebra.GroupWithZero.Nat
import Mathlib.Data.List.Forall2
import Turnstile.Proofs.Redis.Sweeping

/-! # The course of a sweep

A sweep hears one reply to each thing that it sends, and where the replies end there is silence. Read
in turn, the replies fall into visits: a page and, if the page has keys, the number of those that were
removed (`Visit.IsTold`). A visit leads to the next one by the cursor of its page. Behind the visits
that lead on there is an ending (`Ending`): a last visit, whose cursor is zero, or a reply that is no
page, or one that is no number. The sum of what was removed is exact; a word of 64 bits holds it as
long as it is below 2 ^ 64.

Every script of replies falls into visits and an ending in this way (`exists_course`). What is sent is
then settled (`requests`), and so is the result, so the course of a sweep is that of its script and no
other (`follows_replies`). In particular a sweep names for removal what was reported to it, in order,
and nothing else (`named_run`), and stops at the first reply that fails (`run_of_fails`). -/

namespace Turnstile.Redis

open Turnstile.Store Turnstile.Time

/-- What is heard first: of no outcomes, silence. -/
def heard (outcomes : List Outcome) : Outcome := outcomes.headD .silence

/-- The failure that an outcome is, whatever was asked for. -/
def Outcome.failure? (limit : Span) : Outcome → Option Failure
  | reply (.error line) => some (.refused (Reply.errorMessage line))
  | reply _ => none
  | silence => some (.timedOut limit)
  | closed => some (.unavailable "the connection was closed")

theorem Outcome.read_of_failure? {α : Type} {limit : Span} {o : Outcome} {failure : Failure}
    (h : o.failure? limit = some failure) (fits : Reply → Option α) :
    o.read limit fits = .error failure := by
  cases o with
  | reply r =>
    cases r with
    | error line => exact congrArg Except.error (Option.some.inj h)
    | _ => cases h
  | silence => exact congrArg Except.error (Option.some.inj h)
  | closed => exact congrArg Except.error (Option.some.inj h)

/-- The transcript with more that was sent before. -/
def Transcript.after {α : Type} (sent : List (List String)) (t : Transcript α) : Transcript α :=
  { t with sent := sent ++ t.sent }

namespace Sweep

/-! ### Visits -/

/-- A page whose keys were removed. -/
structure Visit where
  keys : List String
  /-- The cursor of the next page. -/
  next : UInt64
  /-- How many of the keys there were, as it was answered. -/
  removed : UInt64

variable {limit : Span} {stem : String}

/-- The replies are those of a visit. -/
inductive Visit.IsTold (limit : Span) : Visit → List Outcome → Prop
  | empty {next : UInt64} {o : Outcome} (hpage : o.read limit Reply.page? = .ok (next, [])) :
    IsTold limit ⟨[], next, 0⟩ [o]
  | keys {keys : List String} {next removed : UInt64} {o o' : Outcome} (hkeys : keys ≠ [])
      (hpage : o.read limit Reply.page? = .ok (next, keys))
      (hremoved : o'.read limit Reply.unsigned? = .ok removed) :
    IsTold limit ⟨keys, next, removed⟩ [o, o']

/-- The request for the page at a cursor. -/
def scan (stem : String) (cursor : UInt64) : List String :=
  ["SCAN", argument cursor.toNat, "MATCH", Glob.ofStem stem, "COUNT", "500"]

/-- The requests of a visit: for the page and, if it has keys, for their removal. -/
def Visit.requests (stem : String) (cursor : UInt64) (v : Visit) : List (List String) :=
  if v.keys = [] then [scan stem cursor] else [scan stem cursor, "DEL" :: v.keys]

/-- The requests of visits from a cursor on. -/
def requests (stem : String) : UInt64 → List Visit → List (List String)
  | _, [] => []
  | cursor, v :: visits => v.requests stem cursor ++ requests stem v.next visits

/-- The cursor that visits lead to. -/
def cursorBehind : UInt64 → List Visit → UInt64
  | cursor, [] => cursor
  | _, v :: visits => cursorBehind v.next visits

/-- What was removed in visits. -/
def removedBy (visits : List Visit) : Nat := (visits.map fun v => v.removed.toNat).sum

/-! ### Courses -/

/-- How a sweep ends that stands at a cursor, with so many keys removed. -/
inductive Ending (limit : Span) (stem : String) (cursor : UInt64) (removed : Nat) :
    List Outcome → Transcript Nat → Prop
  /-- The last page is visited. -/
  | finished {last : Visit} {part rest : List Outcome} (hlast : last.IsTold limit part)
      (hnext : last.next = 0) :
    Ending limit stem cursor removed (part ++ rest)
      ⟨last.requests stem cursor, .ok (removed + last.removed.toNat), rest⟩
  /-- The page is not told. -/
  | noPage {rest : List Outcome} {failure : Failure}
      (hpage : (heard rest).read limit Reply.page? = .error failure) :
    Ending limit stem cursor removed rest ⟨[scan stem cursor], .error failure, rest.tail⟩
  /-- What became of its keys is not told. -/
  | noNumber {keys : List String} {next : UInt64} {o : Outcome} {rest : List Outcome}
      {failure : Failure} (hkeys : keys ≠ []) (hpage : o.read limit Reply.page? = .ok (next, keys))
      (hremoved : (heard rest).read limit Reply.unsigned? = .error failure) :
    Ending limit stem cursor removed (o :: rest)
      ⟨[scan stem cursor, "DEL" :: keys], .error failure, rest.tail⟩

/-- **The course of a sweep** from a cursor on, by its script: visits that lead on, and an ending. -/
def Course (limit : Span) (stem : String) (cursor : UInt64) (removed : Nat)
    (outcomes : List Outcome) (t : Transcript Nat) : Prop :=
  ∃ visits parts rest ending, List.Forall₂ (Visit.IsTold limit) visits parts ∧
    (∀ v ∈ visits, v.next ≠ 0) ∧ outcomes = parts.flatten ++ rest ∧
    Ending limit stem (cursorBehind cursor visits) (removed + removedBy visits) rest ending ∧
    t = ending.after (requests stem cursor visits)

theorem words_asking_eq (cursor : UInt64) (removed : Nat) :
    (asking cursor removed).words stem = scan stem cursor := by
  have hsize : argument pageSize = "500" := by decide
  rw [words, hsize, scan]

theorem runs_asking (cursor : UInt64) (removed : Nat) : (asking cursor removed).Runs :=
  fun _ h => nomatch h

theorem runs_removing (keys : List String) (next : UInt64) (removed : Nat) :
    (removing keys next removed).Runs := fun _ h => nomatch h

/-- Whatever was asked for, a failure is what the step comes to. -/
theorem step_of_failure? {x : Sweep} (hx : x.Runs) {o : Outcome} {failure : Failure}
    (h : o.failure? limit = some failure) : x.step limit o = .error failure := by
  cases x with
  | done removed => exact absurd rfl (hx removed)
  | asking cursor removed =>
    rw [step, Outcome.read_of_failure? h]
    rfl
  | removing keys next removed =>
    rw [step, Outcome.read_of_failure? h]
    rfl

theorem run_of_heard {x : Sweep} (hx : x.Runs) {outcomes : List Outcome} {failure : Failure}
    (h : x.step limit (heard outcomes) = .error failure) :
    x.run limit stem outcomes = ⟨[x.words stem], .error failure, outcomes.tail⟩ := by
  cases outcomes with
  | nil =>
    have hsilence : x.step limit .silence = .error (.timedOut limit) := step_of_failure? hx rfl
    obtain rfl : Failure.timedOut limit = failure := Except.error.inj (hsilence.symm.trans h)
    rw [run_nil hx]
    rfl
  | cons o rest =>
    rw [run_cons hx, show x.step limit o = .error failure from h]
    rfl

theorem step_asking_empty {next : UInt64} {o : Outcome}
    (hpage : o.read limit Reply.page? = .ok (next, [])) (cursor : UInt64) (removed : Nat) :
    step limit o (asking cursor removed) = .ok (goOn next removed) := by
  rw [step, hpage]
  rfl

theorem step_asking_keys {keys : List String} {next : UInt64} {o : Outcome} (hkeys : keys ≠ [])
    (hpage : o.read limit Reply.page? = .ok (next, keys)) (cursor : UInt64) (removed : Nat) :
    step limit o (asking cursor removed) = .ok (removing keys next removed) := by
  have hempty : ¬ keys.isEmpty = true := fun h => hkeys (List.isEmpty_iff.mp h)
  rw [step, hpage]
  exact congrArg Except.ok (if_neg hempty)

/-- **A visit** is one or two requests, and the sweep goes on behind it. -/
theorem run_visit {v : Visit} {part : List Outcome} (h : v.IsTold limit part) (cursor : UInt64)
    (removed : Nat) (rest : List Outcome) :
    (asking cursor removed).run limit stem (part ++ rest) =
      ((goOn v.next (removed + v.removed.toNat)).run limit stem rest).after
        (v.requests stem cursor) := by
  cases h with
  | empty hpage =>
    rw [List.singleton_append, run_cons (runs_asking _ _), step_asking_empty hpage, words_asking_eq]
    rfl
  | keys hkeys hpage hremoved =>
    rw [List.cons_append, List.singleton_append, run_cons (runs_asking _ _),
      step_asking_keys hkeys hpage, words_asking_eq]
    dsimp only
    rw [run_cons (runs_removing _ _ _), step, hremoved, Visit.requests, if_neg hkeys]
    rfl

theorem run_visits {visits : List Visit} {parts : List (List Outcome)}
    (h : List.Forall₂ (Visit.IsTold limit) visits parts) (hnext : ∀ v ∈ visits, v.next ≠ 0)
    (cursor : UInt64) (removed : Nat) (rest : List Outcome) :
    (asking cursor removed).run limit stem (parts.flatten ++ rest) =
      ((asking (cursorBehind cursor visits) (removed + removedBy visits)).run limit stem rest).after
        (requests stem cursor visits) := by
  induction h generalizing cursor removed with
  | nil => rfl
  | @cons v part visits parts hv _ ih =>
    rw [List.forall_mem_cons] at hnext
    have hsum : removed + v.removed.toNat + removedBy visits = removed + removedBy (v :: visits) := by
      rw [removedBy, removedBy, List.map_cons, List.sum_cons, Nat.add_assoc]
    rw [List.flatten_cons, List.append_assoc, run_visit hv, goOn, if_neg hnext.1, ih hnext.2, hsum]
    simp only [Transcript.after, requests, cursorBehind, List.append_assoc]

theorem run_of_ending {cursor : UInt64} {removed : Nat} {outcomes : List Outcome}
    {t : Transcript Nat} (h : Ending limit stem cursor removed outcomes t) :
    (asking cursor removed).run limit stem outcomes = t := by
  cases h with
  | finished hlast hnext =>
    rw [run_visit hlast, goOn, if_pos hnext]
    simp only [run, Transcript.after, List.append_nil]
  | @noPage _ failure hpage =>
    have hstep : step limit (heard outcomes) (asking cursor removed) = .error failure := by
      rw [step, hpage]
      rfl
    rw [run_of_heard (runs_asking _ _) hstep, words_asking_eq]
  | @noNumber keys next o rest failure hkeys hpage hremoved =>
    have hstep : step limit (heard rest) (removing keys next removed) = .error failure := by
      rw [step, hremoved]
      rfl
    rw [run_cons (runs_asking _ _), step_asking_keys hkeys hpage, words_asking_eq]
    dsimp only
    rw [run_of_heard (runs_removing _ _ _) hstep]
    rfl

theorem Visit.IsTold.length_pos {v : Visit} {part : List Outcome} (h : v.IsTold limit part) :
    0 < part.length := by
  cases h <;> exact Nat.succ_pos _

theorem exists_cons_of_heard {α : Type} {fits : Reply → Option α} {a : α} {outcomes : List Outcome}
    (h : (heard outcomes).read limit fits = .ok a) :
    ∃ o rest, outcomes = o :: rest ∧ o.read limit fits = .ok a := by
  cases outcomes with
  | nil => cases h
  | cons o rest => exact ⟨o, rest, rfl, h⟩

theorem told_or_ending (limit : Span) (outcomes : List Outcome) :
    (∃ v part rest, Visit.IsTold limit v part ∧ outcomes = part ++ rest) ∨
      ∀ stem cursor removed, ∃ t, Ending limit stem cursor removed outcomes t := by
  cases hpage : (heard outcomes).read limit Reply.page? with
  | error failure => exact Or.inr fun stem cursor removed => ⟨_, .noPage hpage⟩
  | ok page =>
    obtain ⟨next, keys⟩ := page
    obtain ⟨o, rest, rfl, hpage⟩ := exists_cons_of_heard hpage
    by_cases hkeys : keys = []
    · rw [hkeys] at hpage
      exact Or.inl ⟨_, [o], rest, .empty hpage, rfl⟩
    · cases hremoved : (heard rest).read limit Reply.unsigned? with
      | error failure => exact Or.inr fun stem cursor removed => ⟨_, .noNumber hkeys hpage hremoved⟩
      | ok n =>
        obtain ⟨o', rest, rfl, hremoved⟩ := exists_cons_of_heard hremoved
        exact Or.inl ⟨_, [o, o'], rest, .keys hkeys hpage hremoved, rfl⟩

theorem Course.visit {v : Visit} {part rest : List Outcome} {cursor : UInt64} {removed : Nat}
    {t : Transcript Nat} (hv : v.IsTold limit part) (hnext : v.next ≠ 0)
    (h : Course limit stem v.next (removed + v.removed.toNat) rest t) :
    Course limit stem cursor removed (part ++ rest) (t.after (v.requests stem cursor)) := by
  obtain ⟨visits, parts, behind, ending, hvisits, hnexts, rfl, hending, rfl⟩ := h
  refine ⟨v :: visits, part :: parts, behind, ending, .cons hv hvisits,
    List.forall_mem_cons.mpr ⟨hnext, hnexts⟩, ?_, ?_, ?_⟩
  · rw [List.flatten_cons, List.append_assoc]
  · rw [removedBy, List.map_cons, List.sum_cons, ← Nat.add_assoc]
    exact hending
  · simp only [Transcript.after, requests, List.append_assoc]

/-- **Every script has a course.** -/
theorem exists_course (limit : Span) (stem : String) (cursor : UInt64) (removed : Nat)
    (outcomes : List Outcome) : ∃ t, Course limit stem cursor removed outcomes t := by
  induction hlength : outcomes.length using Nat.strongRecOn generalizing cursor removed outcomes with
  | ind n ih =>
    obtain ⟨v, part, rest, hv, rfl⟩ | hending := told_or_ending limit outcomes
    · by_cases hnext : v.next = 0
      · exact ⟨_, [], [], part ++ rest, _, .nil, nofun, rfl, .finished hv hnext, rfl⟩
      · have hlt : rest.length < n := by
          have hpos := hv.length_pos
          rw [List.length_append] at hlength
          omega
        obtain ⟨t, ht⟩ := ih rest.length hlt v.next (removed + v.removed.toNat) rest rfl
        exact ⟨_, .visit hv hnext ht⟩
    · obtain ⟨t, ht⟩ := hending stem cursor removed
      exact ⟨_, [], [], outcomes, t, .nil, nofun, rfl, ht, rfl⟩

/-- **A sweep takes the course of its script.** -/
theorem run_of_course {cursor : UInt64} {removed : Nat} {outcomes : List Outcome}
    {t : Transcript Nat} (h : Course limit stem cursor removed outcomes t) :
    (asking cursor removed).run limit stem outcomes = t := by
  obtain ⟨visits, parts, rest, ending, hvisits, hnext, rfl, hending, rfl⟩ := h
  rw [run_visits hvisits hnext, run_of_ending hending]

/-! ### What is removed, and where it stops -/

/-- The keys that requests name for removal. -/
def named (sent : List (List String)) : List String :=
  sent.flatMap fun
    | "DEL" :: keys => keys
    | _ => []

/-- The keys that are reported in answer to requests. -/
def reported (limit : Span) (talk : List (List String × Outcome)) : List String :=
  talk.flatMap fun
    | ("SCAN" :: _, o) => ((o.read limit Reply.page?).toOption.map Prod.snd).getD []
    | _ => []

/-- The keys that a sweep is about to remove. -/
def held : Sweep → List String
  | removing keys _ _ => keys
  | _ => []

theorem held_goOn (next : UInt64) (removed : Nat) : (goOn next removed).held = [] := by
  unfold goOn
  split <;> rfl

theorem named_words (x : Sweep) : named [x.words stem] = x.held := by
  cases x with
  | asking cursor removed => rfl
  | removing keys next removed => exact List.append_nil keys
  | done removed => rfl

theorem reported_words (limit : Span) (stem : String) {x : Sweep} (hx : x.Runs) (o : Outcome) :
    reported limit [(x.words stem, o)] =
      match x.step limit o with
      | .ok y => y.held
      | .error _ => [] := by
  cases x with
  | done removed => exact absurd rfl (hx removed)
  | asking cursor removed =>
    cases hread : o.read limit Reply.page? with
    | error failure => simp [reported, words, step, hread, Except.toOption, Except.map]
    | ok page =>
      cases hkeys : page.2.isEmpty with
      | true =>
        simp [reported, words, step, hread, Except.toOption, Except.map, held_goOn,
          List.isEmpty_iff.mp hkeys]
      | false => simp [reported, words, step, hread, Except.toOption, Except.map, hkeys, held]
  | removing keys next removed =>
    cases hread : o.read limit Reply.unsigned? with
    | error failure => simp [reported, words, step, hread, Except.map]
    | ok n => simp [reported, words, step, hread, Except.map, held_goOn]

theorem run_done (removed : Nat) (outcomes : List Outcome) :
    (done removed).run limit stem outcomes = ⟨[], .ok removed, outcomes⟩ := by
  cases outcomes <;> rfl

theorem named_run (limit : Span) (stem : String) (x : Sweep) (outcomes : List Outcome) :
    named (x.run limit stem outcomes).sent =
      x.held ++ reported limit ((x.run limit stem outcomes).sent.zip outcomes) := by
  have hnamed : ∀ (words : List String) sent, named (words :: sent) = named [words] ++ named sent := by
    intro words sent
    simp [named]
  have hreported : ∀ pair talk, reported limit (pair :: talk) =
      reported limit [pair] ++ reported limit talk := by
    intro pair talk
    simp [reported]
  induction outcomes generalizing x with
  | nil =>
    obtain ⟨removed, rfl⟩ | hx := x.done_or_runs
    · rfl
    · rw [run_nil hx, named_words, List.zip_nil_right]
      exact (List.append_nil _).symm
  | cons o outcomes ih =>
    obtain ⟨removed, rfl⟩ | hx := x.done_or_runs
    · rfl
    · have hstep := reported_words limit stem hx o
      rw [run_cons hx]
      cases h : x.step limit o with
      | error failure =>
        rw [h] at hstep
        dsimp only at hstep ⊢
        rw [named_words, List.zip_cons_cons, List.zip_nil_left, hstep, List.append_nil]
      | ok y =>
        rw [h] at hstep
        dsimp only at hstep ⊢
        rw [hnamed, named_words, ih, List.zip_cons_cons, hreported, hstep]

/-- **A sweep stops at the first reply that fails**, and what it sent up to there is settled by the
replies before. -/
theorem run_of_fails {x : Sweep} {outcomes : List Outcome} {i : Nat} {o : Outcome}
    {failure : Failure} (hi : i < (x.run limit stem outcomes).sent.length)
    (ho : outcomes[i]? = some o) (hfails : o.failure? limit = some failure) :
    (x.run limit stem outcomes).sent.length = i + 1 ∧
      (x.run limit stem outcomes).result = .error failure ∧
      (x.run limit stem outcomes).sent = (x.run limit stem (outcomes.take i)).sent := by
  induction outcomes generalizing x i with
  | nil => cases ho
  | cons o' outcomes ih =>
    obtain ⟨removed, rfl⟩ | hx := x.done_or_runs
    · rw [run_done] at hi
      exact absurd hi (Nat.not_lt_zero i)
    · rw [run_cons hx] at hi ⊢
      cases i with
      | zero =>
        obtain rfl : o' = o := Option.some.inj ho
        rw [step_of_failure? hx hfails, List.take_zero, run_nil hx]
        exact ⟨rfl, rfl, rfl⟩
      | succ i =>
        rw [List.take_succ_cons, run_cons hx]
        cases hstep : x.step limit o' with
        | error other =>
          rw [hstep] at hi
          exact absurd hi (by simp)
        | ok y =>
          rw [hstep] at hi
          dsimp only at hi ⊢
          obtain ⟨hlength, hresult, hsent⟩ := ih (Nat.lt_of_succ_lt_succ hi) ho
          exact ⟨congrArg Nat.succ hlength, hresult, congrArg (x.words stem :: ·) hsent⟩

end Sweep

/-- **A sweep follows the replies.** It takes the course of its script and no other: page by page from
the cursor zero, each page with keys followed by the removal of exactly these keys, up to the first
page with the cursor zero, with the sum of what was removed, or to the first reply that does not fit.
It names for removal what was reported, in order. A reply that is a failure is the last one it hears,
and what it comes to. -/
theorem follows_replies (c : Client) (stem : String) (outcomes : List Outcome) :
    let t := c.run outcomes (.deleteByPrefix stem)
    (∀ t', Sweep.Course c.limit stem 0 0 outcomes t' ↔ t' = t) ∧
      Sweep.named t.sent = Sweep.reported c.limit (t.sent.zip outcomes) ∧
      ∀ i o failure, i < t.sent.length → outcomes[i]? = some o → o.failure? c.limit = some failure →
        t.sent.length = i + 1 ∧ t.result = .error failure ∧
          t.sent = (c.run (outcomes.take i) (.deleteByPrefix stem)).sent := by
  intro t
  refine ⟨fun t' => ⟨fun h => (Sweep.run_of_course h).symm, ?_⟩,
    Sweep.named_run c.limit stem .start outcomes, fun i o failure => Sweep.run_of_fails⟩
  rintro rfl
  obtain ⟨t', ht'⟩ := Sweep.exists_course c.limit stem 0 0 outcomes
  rw [← Sweep.run_of_course ht'] at ht'
  exact ht'

/-- A page without keys, the same cursor again with two keys, of which one was there, and a page with
a key whose removal fails. The last reply is not heard. -/
def busyScript : List Outcome :=
  [.reply (.ofPage (17, [])), .reply (.ofPage (17, ["a*[b1", "axb"])), .reply (.integer 1),
    .reply (.ofPage (5, ["a*[b2"])), .reply (.error "BUSY later"), .reply (.integer 1)]

theorem follows_replies_busyScript :
    let t := (Client.mk (.ofSeconds 10)).run busyScript (.deleteByPrefix "a*[b")
    (4 < t.sent.length ∧ busyScript[4]? = some (.reply (.error "BUSY later")) ∧
        Outcome.failure? (.ofSeconds 10) (.reply (.error "BUSY later")) =
          some (.refused "BUSY: later")) ∧
      t.sent.length = 5 ∧ t.result = .error (.refused "BUSY: later") ∧
      Sweep.named t.sent = ["a*[b1", "axb", "a*[b2"] := by
  intro t
  have hlength : 4 < t.sent.length := by decide +kernel
  have hfailure : Outcome.failure? (.ofSeconds 10) (.reply (.error "BUSY later")) =
      some (.refused "BUSY: later") := by
    decide +kernel
  obtain ⟨-, hnamed, hfails⟩ := follows_replies ⟨.ofSeconds 10⟩ "a*[b" busyScript
  obtain ⟨hstop, hresult, -⟩ := hfails 4 _ _ hlength rfl hfailure
  have hreported : Sweep.reported (.ofSeconds 10) (t.sent.zip busyScript) =
      ["a*[b1", "axb", "a*[b2"] := by
    decide +kernel
  exact ⟨⟨hlength, rfl, hfailure⟩, hstop, hresult, hnamed.trans hreported⟩

end Turnstile.Redis
