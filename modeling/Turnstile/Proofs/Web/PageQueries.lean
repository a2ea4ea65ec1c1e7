import Turnstile.Proofs.Config.Validation
import Turnstile.Proofs.Http.Form
import Turnstile.Proofs.Text.Decimal
import Turnstile.Web.PageParams

/-! # Which pages can be asked for

A query says something about a page under two names only. The values that it gives for a name
(`given`) are clear if there is at most one and that one is a number (`Tells`, `exists_tells_iff`). The
reader goes through the pairs from the left and keeps what it has read so far; one pair adds to what
is kept under its name and leaves the other alone (`step_eq_ok_iff`), so what is kept at the end
depends on the values of each name and not on how they are mixed (`foldlM_step_eq_ok_iff`).

Hence the answer (`outcome_of_tells`, `outcome_of_unclear`): 400 for values that are not clear, then
422 for a size out of bounds, and otherwise the page. -/

namespace Turnstile.Web

open Turnstile.Http Turnstile.Text

namespace PageQuery

/-- The values that pairs give for a name, in their order. -/
def given (name : String) (pairs : List (String × String)) : List String :=
  (pairs.filter (·.1 = name)).map Prod.snd

/-- The value is a number below 2^64. -/
def IsNumber (value : String) : Prop := ∃ n < UInt64.size, Decimal.Unsigned value.toList n

/-- Values are given more than once, or one that is no number. -/
def Unclear (values : List String) : Prop := 1 < values.length ∨ ∃ v ∈ values, ¬ IsNumber v

/-- What values say: nothing, or the number that the only one of them is. -/
def Tells : List String → Option UInt64 → Prop
  | [], n => n = none
  | [v], n => ∃ m : UInt64, n = some m ∧ Decimal.Unsigned v.toList m.toNat
  | _ :: _ :: _, _ => False

/-- What values say after what was said before: once is enough. -/
def TellsAfter (before : Option UInt64) (values : List String) (after : Option UInt64) : Prop :=
  match before with
  | none => Tells values after
  | some _ => values = [] ∧ after = before

/-! ### What is read -/

theorem given_append (name : String) (ps qs : List (String × String)) :
    given name (ps ++ qs) = given name ps ++ given name qs := by
  simp [given]

theorem given_singleton (name : String) (p : String × String) :
    given name [p] = if p.1 = name then [p.2] else [] := by
  by_cases h : p.1 = name <;> simp [given, h]

theorem tellsAfter_nil {before after : Option UInt64} :
    TellsAfter before [] after ↔ after = before := by
  cases before <;> simp [TellsAfter, Tells]

theorem tellsAfter_cons {before after : Option UInt64} {v : String} {values : List String} :
    TellsAfter before (v :: values) after ↔
      before = none ∧ ∃ n : UInt64, Decimal.Unsigned v.toList n.toNat ∧
        TellsAfter (some n) values after := by
  cases before with
  | some n => simp [TellsAfter]
  | none =>
    cases values with
    | nil =>
      simp only [TellsAfter, Tells, true_and]
      exact exists_congr fun n => and_comm
    | cons w values => simp [TellsAfter, Tells]

theorem tellsAfter_append {before after : Option UInt64} {vs ws : List String} :
    TellsAfter before (vs ++ ws) after ↔
      ∃ mid, TellsAfter before vs mid ∧ TellsAfter mid ws after := by
  induction vs generalizing before with
  | nil => simp [tellsAfter_nil]
  | cons v vs ih =>
    simp only [List.cons_append, tellsAfter_cons, ih]
    constructor
    · rintro ⟨hnone, n, hn, mid, hmid, hafter⟩
      exact ⟨mid, ⟨hnone, n, hn, hmid⟩, hafter⟩
    · rintro ⟨mid, ⟨hnone, n, hn, hmid⟩, hafter⟩
      exact ⟨hnone, n, hn, mid, hmid, hafter⟩

theorem number_eq_ok_iff {name value : String} {before : Option UInt64} {n : UInt64} :
    number name value before = .ok n ↔ before = none ∧ Decimal.Unsigned value.toList n.toNat := by
  rw [← Decimal.readUInt64_eq_ok_iff]
  unfold number
  cases before with
  | some m => simp
  | none => cases Decimal.readUInt64 value.toList <;> simp [Except.mapError]

theorem map_number_eq_ok_iff {name value : String} {before : Option UInt64}
    {f : UInt64 → PageQuery} {q : PageQuery} :
    (number name value before).map f = .ok q ↔
      before = none ∧ ∃ n : UInt64, Decimal.Unsigned value.toList n.toNat ∧ f n = q := by
  have hread : (number name value before).map f = .ok q ↔
      ∃ n, number name value before = .ok n ∧ f n = q := by
    cases number name value before <;> simp [Except.map]
  simp only [hread, number_eq_ok_iff, and_assoc, exists_and_left]

/-- **One pair** is kept under its name, if it says something and nothing was said there before. -/
theorem step_eq_ok_iff {q q' : PageQuery} {p : String × String} :
    step q p = .ok q' ↔
      TellsAfter q.cursor (given "cursor" [p]) q'.cursor ∧
        TellsAfter q.size (given "size" [p]) q'.size := by
  obtain ⟨cursor, size⟩ := q
  obtain ⟨cursor', size'⟩ := q'
  simp only [step, given_singleton]
  by_cases hcursor : p.1 = "cursor"
  · have hsize : p.1 ≠ "size" := by
      rw [hcursor]
      decide
    simp only [hcursor, if_true, String.reduceEq, if_false, map_number_eq_ok_iff, tellsAfter_cons,
      tellsAfter_nil, mk.injEq]
    constructor
    · rintro ⟨hnone, n, hn, rfl, rfl⟩
      exact ⟨⟨hnone, n, hn, rfl⟩, rfl⟩
    · rintro ⟨⟨hnone, n, hn, rfl⟩, rfl⟩
      exact ⟨hnone, n, hn, rfl, rfl⟩
  · by_cases hsize : p.1 = "size"
    · simp only [hsize, if_true, String.reduceEq, if_false, map_number_eq_ok_iff, tellsAfter_cons,
        tellsAfter_nil, mk.injEq]
      constructor
      · rintro ⟨hnone, n, hn, rfl, rfl⟩
        exact ⟨rfl, hnone, n, hn, rfl⟩
      · rintro ⟨rfl, hnone, n, hn, rfl⟩
        exact ⟨hnone, n, hn, rfl, rfl⟩
    · simp only [hcursor, hsize, if_false, tellsAfter_nil, Except.ok.injEq, mk.injEq]
      exact and_congr eq_comm eq_comm

/-- **The whole query**: what is kept under a name is what its values say, however they are mixed. -/
theorem foldlM_step_eq_ok_iff {q q' : PageQuery} {pairs : List (String × String)} :
    pairs.foldlM step q = .ok q' ↔
      TellsAfter q.cursor (given "cursor" pairs) q'.cursor ∧
        TellsAfter q.size (given "size" pairs) q'.size := by
  induction pairs generalizing q with
  | nil =>
    obtain ⟨cursor, size⟩ := q
    obtain ⟨cursor', size'⟩ := q'
    have hgiven : ∀ name, given name [] = [] := fun _ => rfl
    have hpure : (pure ⟨cursor, size⟩ : Except Fault PageQuery) = .ok ⟨cursor, size⟩ := rfl
    simp only [List.foldlM_nil, hgiven, tellsAfter_nil, hpure, Except.ok.injEq, mk.injEq]
    exact and_congr eq_comm eq_comm
  | cons p pairs ih =>
    have hbind : (p :: pairs).foldlM step q = .ok q' ↔
        ∃ mid, step q p = .ok mid ∧ pairs.foldlM step mid = .ok q' := by
      rw [List.foldlM_cons]
      cases step q p with
      | error fault => simp [bind, Except.bind]
      | ok mid => simp [bind, Except.bind]
    rw [hbind, ← List.singleton_append, given_append, given_append, tellsAfter_append,
      tellsAfter_append]
    simp only [step_eq_ok_iff, ih]
    constructor
    · rintro ⟨⟨cursor, size⟩, ⟨hcursor, hsize⟩, hcursor', hsize'⟩
      exact ⟨⟨cursor, hcursor, hcursor'⟩, size, hsize, hsize'⟩
    · rintro ⟨⟨cursor, hcursor, hcursor'⟩, size, hsize, hsize'⟩
      exact ⟨⟨cursor, size⟩, ⟨hcursor, hsize⟩, hcursor', hsize'⟩

theorem ofPairs_eq_ok_iff {pairs : List (String × String)} {q : PageQuery} :
    ofPairs pairs = .ok q ↔
      Tells (given "cursor" pairs) q.cursor ∧ Tells (given "size" pairs) q.size :=
  foldlM_step_eq_ok_iff

/-! ### What is clear -/

theorem isNumber_iff {value : String} :
    IsNumber value ↔ ∃ n : UInt64, Decimal.Unsigned value.toList n.toNat := by
  constructor
  · rintro ⟨n, hn, h⟩
    refine ⟨UInt64.ofNat n, ?_⟩
    rw [UInt64.toNat_ofNat_of_lt' hn]
    exact h
  · rintro ⟨n, h⟩
    exact ⟨n.toNat, n.toNat_lt_size, h⟩

theorem exists_tells_iff {values : List String} : (∃ n, Tells values n) ↔ ¬ Unclear values := by
  match values with
  | [] => simp [Tells, Unclear]
  | [v] =>
    simp only [Tells, Unclear, List.length_singleton, List.mem_singleton, exists_eq_left, not_or,
      not_not, isNumber_iff]
    constructor
    · rintro ⟨n, m, -, h⟩
      exact ⟨by omega, m, h⟩
    · rintro ⟨-, m, h⟩
      exact ⟨some m, m, rfl, h⟩
  | v :: w :: values => simp [Tells, Unclear]

/-- The values that a target gives for a name. -/
def ofTargetGiven (name : String) (t : Target) : List String :=
  given name (Form.pairs (t.query.getD "").toList)

end PageQuery

/-! ### Answers -/

open PageQuery

section outcome

variable {limits : PagingConfig} {t : Target}

/-- The status with which a page is refused, or the request for it. -/
def outcome (limits : PagingConfig) (t : Target) : Except Nat (Page.Request UInt64) :=
  (pageRequest limits t).mapError (·.status)

/-- A page cannot have the size. -/
def OutOfBounds (limits : PagingConfig) (size : UInt64) : Prop := size = 0 ∨ limits.maxSize < size

/-- Values that are not clear are a bad request, whatever their fault. -/
theorem outcome_of_unclear
    (h : Unclear (ofTargetGiven "cursor" t) ∨ Unclear (ofTargetGiven "size" t)) :
    outcome limits t = .error 400 := by
  unfold outcome pageRequest
  cases hquery : ofTarget t with
  | error fault => rfl
  | ok q =>
    obtain ⟨hcursor, hsize⟩ := ofPairs_eq_ok_iff.mp hquery
    rcases h with h | h
    · exact absurd h (exists_tells_iff.mp ⟨_, hcursor⟩)
    · exact absurd h (exists_tells_iff.mp ⟨_, hsize⟩)

section told

variable {cursor size : Option UInt64} (hcursor : Tells (ofTargetGiven "cursor" t) cursor)
  (hsize : Tells (ofTargetGiven "size" t) size)
include hcursor hsize

theorem outcome_of_tells : outcome limits t =
    (Page.Request.make limits.maxSize cursor (size.getD limits.defaultSize)).mapError
      fun _ => 422 := by
  have hquery : ofTarget t = .ok ⟨cursor, size⟩ := ofPairs_eq_ok_iff.mpr ⟨hcursor, hsize⟩
  unfold outcome pageRequest
  rw [hquery]
  dsimp only [request]
  cases Page.Request.make limits.maxSize cursor (size.getD limits.defaultSize) <;> rfl

theorem outcome_of_outOfBounds (h : OutOfBounds limits (size.getD limits.defaultSize)) :
    outcome limits t = .error 422 := by
  rw [outcome_of_tells hcursor hsize, Page.Request.make]
  split
  · rfl
  · next hne =>
    rw [if_pos (h.resolve_left hne)]
    rfl

theorem outcome_of_inBounds (h : ¬ OutOfBounds limits (size.getD limits.defaultSize)) :
    ∃ r, outcome limits t = .ok r ∧ r.cursor = cursor ∧ r.size = size.getD limits.defaultSize := by
  obtain ⟨hne, hle⟩ := not_or.mp h
  refine ⟨⟨cursor, size.getD limits.defaultSize, hne⟩, ?_, rfl, rfl⟩
  rw [outcome_of_tells hcursor hsize, Page.Request.make, dif_neg hne, if_neg hle]
  rfl

end told

theorem exists_tells
    (h : ¬ (Unclear (ofTargetGiven "cursor" t) ∨ Unclear (ofTargetGiven "size" t))) :
    ∃ cursor size, Tells (ofTargetGiven "cursor" t) cursor ∧ Tells (ofTargetGiven "size" t) size := by
  obtain ⟨hcursor, hsize⟩ := not_or.mp h
  obtain ⟨cursor, hcursor⟩ := exists_tells_iff.mpr hcursor
  obtain ⟨size, hsize⟩ := exists_tells_iff.mpr hsize
  exact ⟨cursor, size, hcursor, hsize⟩

theorem inBounds_of_outcome {r : Page.Request UInt64} (h : outcome limits t = .ok r) :
    ¬ (Unclear (ofTargetGiven "cursor" t) ∨ Unclear (ofTargetGiven "size" t)) ∧
      ¬ OutOfBounds limits r.size := by
  have hclear : ¬ (Unclear (ofTargetGiven "cursor" t) ∨ Unclear (ofTargetGiven "size" t)) := by
    intro hunclear
    rw [outcome_of_unclear hunclear] at h
    cases h
  refine ⟨hclear, fun hsize => ?_⟩
  obtain ⟨cursor, size, htellsCursor, htellsSize⟩ := exists_tells hclear
  by_cases hout : OutOfBounds limits (size.getD limits.defaultSize)
  · rw [outcome_of_outOfBounds htellsCursor htellsSize hout] at h
    cases h
  · obtain ⟨r', hr', -, hsame⟩ := outcome_of_inBounds htellsCursor htellsSize hout
    obtain rfl := Except.ok.inj (h.symm.trans hr')
    rw [hsame] at hsize
    exact hout hsize

theorem outcome_eq_400_iff : outcome limits t = .error 400 ↔
    Unclear (ofTargetGiven "cursor" t) ∨ Unclear (ofTargetGiven "size" t) := by
  refine ⟨fun h => ?_, outcome_of_unclear⟩
  by_contra hclear
  obtain ⟨cursor, size, hcursor, hsize⟩ := exists_tells hclear
  rw [outcome_of_tells hcursor hsize] at h
  cases hmake : Page.Request.make limits.maxSize cursor (size.getD limits.defaultSize) with
  | error refusal =>
    rw [hmake] at h
    cases h
  | ok r =>
    rw [hmake] at h
    cases h

/-- **The answer depends on the values of the two names** and on nothing else. -/
theorem outcome_congr {u : Target} (hcursor : ofTargetGiven "cursor" t = ofTargetGiven "cursor" u)
    (hsize : ofTargetGiven "size" t = ofTargetGiven "size" u) :
    outcome limits t = outcome limits u := by
  by_cases hclear : Unclear (ofTargetGiven "cursor" t) ∨ Unclear (ofTargetGiven "size" t)
  · rw [outcome_of_unclear hclear]
    rw [hcursor, hsize] at hclear
    rw [outcome_of_unclear hclear]
  · obtain ⟨cursor, size, htellsCursor, htellsSize⟩ := exists_tells hclear
    rw [outcome_of_tells htellsCursor htellsSize]
    rw [hcursor] at htellsCursor
    rw [hsize] at htellsSize
    rw [outcome_of_tells htellsCursor htellsSize]

end outcome

/-- The second page in twos, with escapes, a pair of another name, and nothing between two `&`. -/
def escapedQuery : String := "size=%32&&sort=a%26b&cursor=%2B7"

/-- The same page, asked for in the plainest way. -/
def plainQuery : String := "cursor=%2b7&size=2"

theorem querySpells_escapedQuery :
    Form.QuerySpells escapedQuery.toList [("size", "2"), ("sort", "a&b"), ("cursor", "+7")] := by
  have htwo : Form.Spells "%32".toList (Utf8.encode "2") := by
    rw [Utf8.encode_eq]
    exact .escape (m := 3) (n := 2) rfl rfl .nil
  have hand : Form.Spells "a%26b".toList (Utf8.encode "a&b") := by
    rw [Utf8.encode_eq]
    exact .char (by decide) (.escape (m := 2) (n := 6) rfl rfl (.char (by decide) .nil))
  have hseven : Form.Spells "%2B7".toList (Utf8.encode "+7") := by
    rw [Utf8.encode_eq]
    exact .escape (m := 2) (n := 11) rfl rfl (.char (by decide) .nil)
  have hplain : ∀ name ∈ ["size", "sort", "cursor"],
      '=' ∉ name.toList ∧ Form.Spells name.toList (Utf8.encode name) := by
    intro name hname
    simp only [List.mem_cons, List.not_mem_nil, or_false] at hname
    rcases hname with rfl | rfl | rfl <;> exact ⟨by decide, Form.spells_plain (by simp)⟩
  have hsize := hplain "size" (by decide)
  have hsort := hplain "sort" (by decide)
  have hcursor := hplain "cursor" (by decide)
  exact ⟨["size=%32".toList, [], "sort=a%26b".toList, "cursor=%2B7".toList], by decide,
    .cons (.both _ _ hsize.1 hsize.2 htwo) (.cons (.both _ _ hsort.1 hsort.2 hand)
      (.cons (.both _ _ hcursor.1 hcursor.2 hseven) .nil))⟩

theorem querySpells_plainQuery :
    Form.QuerySpells plainQuery.toList [("cursor", "+7"), ("size", "2")] := by
  have hseven : Form.Spells "%2b7".toList (Utf8.encode "+7") := by
    rw [Utf8.encode_eq]
    exact .escape (m := 2) (n := 11) rfl rfl (.char (by decide) .nil)
  exact ⟨["cursor=%2b7".toList, "size=2".toList], by decide,
    .cons (.both "cursor".toList _ (by decide) (Form.spells_plain (by simp)) hseven)
      (.cons (.both "size".toList "2".toList (by decide) (Form.spells_plain (by simp))
        (Form.spells_plain (by simp))) .nil)⟩

end Turnstile.Web
