import Mathlib.Data.List.Forall2
import Turnstile.Config

/-! # Which settings are valid

The settings hand out six lengths of time, each set by a variable of its own (`Config.times`). The
check looks at five of them, all but the time that connecting may take, and at the page sizes
(`validate_eq`): settings are valid if none of the five is zero and the default page size is between
one and the limit, and of several that are zero the first one is told.

No default is zero. So a time that is told to be zero was set to zero, by the very variable that is
told (`setting_of_number_eq_zero`, `validate_ofEnvironment`).

The time that connecting may take is not looked at. Settings in which it is zero are valid if all
else is (`connecting_unchecked`), so a valid environment is one without zero times only if that one
is not zero either. -/

namespace Turnstile

open Turnstile.Text Turnstile.Time

namespace Time.Span

theorem ofMillis_eq_zero {n : UInt64} : ofMillis n.toNat = zero ↔ n = 0 := by
  rw [ofMillis, zero, mk.injEq, ← UInt64.toNat_inj, UInt64.toNat_zero]
  omega

theorem ofSeconds_eq_zero {n : UInt64} : ofSeconds n.toNat = zero ↔ n = 0 := by
  rw [ofSeconds, zero, mk.injEq, ← UInt64.toNat_inj, UInt64.toNat_zero]
  omega

end Time.Span

namespace Config

/-- The times that are checked, with the variables that set them. -/
def watched (c : Config) : List (String × Span) :=
  [("REDIS_COMMAND_TIMEOUT_MS", c.redis.commandTimeout),
    ("IDEMPOTENCY_LOCK_TTL_SECS", c.idempotency.lockLifetime),
    ("CACHE_PRODUCT_TTL_SECS", c.cache.productLifetime),
    ("CACHE_CURATION_TTL_SECS", c.cache.curationLifetime),
    ("REFRESH_TOKEN_TTL_SECS", c.cache.refreshTokenLifetime)]

/-- All times that the settings hand out, with the variables that set them. -/
def times (c : Config) : List (String × Span) :=
  ("REDIS_CONNECT_TIMEOUT_MS", c.redis.connectTimeout) :: c.watched

/-- None of the times is zero. -/
def NoneZero (times : List (String × Span)) : Prop := ∀ x ∈ times, x.2 ≠ .zero

/-- The first of the times that are zero is the one that the variable sets. -/
def FirstZero (times : List (String × Span)) (variableName : String) : Prop :=
  ∃ before after, times = before ++ (variableName, .zero) :: after ∧ NoneZero before

/-- The default page size is between one and the limit. -/
def SizesFit (c : Config) : Prop :=
  1 ≤ c.paging.defaultSize ∧ c.paging.defaultSize ≤ c.paging.maxSize

instance (times : List (String × Span)) : Decidable (NoneZero times) := by
  unfold NoneZero; infer_instance

instance (c : Config) : Decidable c.SizesFit := by
  unfold SizesFit; infer_instance

/-! ### The check -/

theorem sizesFit_iff {c : Config} :
    c.SizesFit ↔ ¬ (c.paging.defaultSize = 0 ∨ c.paging.maxSize < c.paging.defaultSize) := by
  rw [SizesFit, not_or, UInt64.not_lt, UInt64.le_iff_toNat_le, UInt64.toNat_one,
    ← UInt64.toNat_inj, UInt64.toNat_zero]
  exact and_congr_left fun _ => Nat.one_le_iff_ne_zero

theorem find?_of_forall₂ {xs : List (String × UInt64)} {ys : List (String × Span)}
    (h : List.Forall₂ (fun x y => x.1 = y.1 ∧ (x.2 = 0 ↔ y.2 = .zero)) xs ys) :
    (xs.find? (·.2 = 0)).map Prod.fst = (ys.find? (·.2 = .zero)).map Prod.fst := by
  induction h with
  | nil => rfl
  | @cons x y xs ys hxy _ ih =>
    rw [List.find?_cons, List.find?_cons]
    by_cases hzero : y.2 = .zero
    · simp only [hxy.2.mpr hzero, hzero, decide_true, Option.map_some, hxy.1]
    · simp only [mt hxy.2.mp hzero, hzero, decide_false, ih]

theorem find?_checkedTimes (c : Config) : (c.checkedTimes.find? (·.2 = 0)).map Prod.fst =
    (c.watched.find? (·.2 = .zero)).map Prod.fst :=
  find?_of_forall₂
    (.cons ⟨rfl, Span.ofMillis_eq_zero.symm⟩ (.cons ⟨rfl, Span.ofSeconds_eq_zero.symm⟩
      (.cons ⟨rfl, Span.ofSeconds_eq_zero.symm⟩ (.cons ⟨rfl, Span.ofSeconds_eq_zero.symm⟩
        (.cons ⟨rfl, Span.ofSeconds_eq_zero.symm⟩ .nil)))))

/-- **The check** tells the first time that is zero, or else page sizes that do not fit. -/
theorem validate_eq (c : Config) : c.validate =
    match (c.watched.find? (·.2 = .zero)).map Prod.fst with
    | some variableName => .error (.zeroDuration variableName)
    | none =>
      if c.SizesFit then .ok () else .error (.pageSize c.paging.defaultSize c.paging.maxSize) := by
  rw [← find?_checkedTimes, validate]
  cases c.checkedTimes.find? (·.2 = 0) with
  | some x => rfl
  | none =>
    simp only [Option.map_none, sizesFit_iff, ite_not]

theorem find?_eq_none_iff {times : List (String × Span)} :
    (times.find? (·.2 = .zero)).map Prod.fst = none ↔ NoneZero times := by
  simp [NoneZero]

theorem find?_eq_some_iff {times : List (String × Span)} {variableName : String} :
    (times.find? (·.2 = .zero)).map Prod.fst = some variableName ↔
      FirstZero times variableName := by
  rw [Option.map_eq_some_iff, FirstZero]
  constructor
  · rintro ⟨⟨name, time⟩, hfind, rfl⟩
    obtain ⟨hzero, before, after, rfl, hbefore⟩ := List.find?_eq_some_iff_append.mp hfind
    obtain rfl : time = .zero := by simpa using hzero
    exact ⟨before, after, rfl, fun x hx => by simpa using hbefore x hx⟩
  · rintro ⟨before, after, rfl, hbefore⟩
    refine ⟨(variableName, .zero), List.find?_eq_some_iff_append.mpr ?_, rfl⟩
    exact ⟨by simp, before, after, rfl, fun x hx => by simpa using hbefore x hx⟩

theorem validate_eq_ok_iff {c : Config} :
    c.validate = .ok () ↔ NoneZero c.watched ∧ c.SizesFit := by
  rw [validate_eq, ← find?_eq_none_iff]
  cases (c.watched.find? (·.2 = .zero)).map Prod.fst with
  | some variableName => simp
  | none => by_cases h : c.SizesFit <;> simp [h]

theorem validate_eq_zeroDuration_iff {c : Config} {variableName : String} :
    c.validate = .error (.zeroDuration variableName) ↔ FirstZero c.watched variableName := by
  rw [validate_eq, ← find?_eq_some_iff]
  cases (c.watched.find? (·.2 = .zero)).map Prod.fst with
  | some other => simp
  | none => by_cases h : c.SizesFit <;> simp [h]

theorem validate_eq_pageSize_iff {c : Config} {size max : UInt64} :
    c.validate = .error (.pageSize size max) ↔ NoneZero c.watched ∧ ¬ c.SizesFit ∧
      size = c.paging.defaultSize ∧ max = c.paging.maxSize := by
  rw [validate_eq, ← find?_eq_none_iff]
  cases (c.watched.find? (·.2 = .zero)).map Prod.fst with
  | some variableName => simp
  | none => by_cases h : c.SizesFit <;> simp [h, eq_comm]

/-! ### What operators set -/

/-- The variable is set to zero, in whatever way zero is written. -/
def SetToZero (env : Environment) (variableName : String) : Prop :=
  ∃ setting, env variableName = some setting ∧
    Decimal.readUInt64 (Blank.trim setting.toList) = .ok 0

/-- A number that is zero where the default is not was set to zero. -/
theorem number_eq_zero_iff {env : Environment} {variableName : String} {otherwise : UInt64}
    (h : otherwise ≠ 0) : number env variableName otherwise = 0 ↔ SetToZero env variableName := by
  unfold number SetToZero
  cases env variableName with
  | none => simp [h]
  | some setting =>
    cases hread : Decimal.readUInt64 (Blank.trim setting.toList) with
    | error refusal => simp [hread, Except.toOption, h]
    | ok n => simp [hread, Except.toOption]

/-- **Where zeros come from.** No default is zero. -/
theorem times_ofEnvironment (env : Environment) :
    ∀ x ∈ (ofEnvironment env).times, x.2 = .zero ↔ SetToZero env x.1 := by
  simp only [times, watched, List.forall_mem_cons, List.not_mem_nil, false_implies, implies_true,
    and_true]
  exact ⟨Span.ofMillis_eq_zero.trans (number_eq_zero_iff (by decide)),
    Span.ofMillis_eq_zero.trans (number_eq_zero_iff (by decide)),
    Span.ofSeconds_eq_zero.trans (number_eq_zero_iff (by decide)),
    Span.ofSeconds_eq_zero.trans (number_eq_zero_iff (by decide)),
    Span.ofSeconds_eq_zero.trans (number_eq_zero_iff (by decide)),
    Span.ofSeconds_eq_zero.trans (number_eq_zero_iff (by decide))⟩

/-- **Valid environments.** Settings are valid exactly if none of the five watched times is zero and
the page sizes fit; so they are valid and all their times last for a while exactly if, besides, the
time for connecting is not zero. The defect that is told is the first zero of the five, or else the
sizes. And a time is zero only because its own variable was set to zero. -/
theorem validate_ofEnvironment (env : Environment) :
    let c := ofEnvironment env
    (c.validate = .ok () ↔ NoneZero c.watched ∧ c.SizesFit) ∧
      (NoneZero c.times ∧ c.SizesFit ↔ c.validate = .ok () ∧ c.redis.connectTimeout ≠ .zero) ∧
      (∀ variableName, c.validate = .error (.zeroDuration variableName) ↔
        FirstZero c.watched variableName) ∧
      (∀ size max, c.validate = .error (.pageSize size max) ↔
        NoneZero c.watched ∧ ¬ c.SizesFit ∧ size = c.paging.defaultSize ∧ max = c.paging.maxSize) ∧
      ∀ x ∈ c.times, x.2 = .zero ↔ SetToZero env x.1 := by
  intro c
  refine ⟨validate_eq_ok_iff, ?_, fun _ => validate_eq_zeroDuration_iff,
    fun _ _ => validate_eq_pageSize_iff, times_ofEnvironment env⟩
  rw [validate_eq_ok_iff, NoneZero, times, List.forall_mem_cons, ← NoneZero, and_assoc, and_comm]

/-- Tokens are to last for no time, which is written in an odd way, and so is connecting. -/
def spent : Environment
  | "REFRESH_TOKEN_TTL_SECS" => some " +00 "
  | "REDIS_CONNECT_TIMEOUT_MS" => some "0"
  | _ => none

theorem validate_ofEnvironment_spent :
    let c := ofEnvironment spent
    ("REFRESH_TOKEN_TTL_SECS", Span.zero) ∈ c.times ∧ SetToZero spent "REFRESH_TOKEN_TTL_SECS" ∧
      c.validate = .error (.zeroDuration "REFRESH_TOKEN_TTL_SECS") := by
  intro c
  obtain ⟨-, -, hfirst, -, hset⟩ := validate_ofEnvironment spent
  have hmem : ("REFRESH_TOKEN_TTL_SECS", Span.zero) ∈ c.times := by decide +kernel
  refine ⟨hmem, (hset _ hmem).mp rfl, (hfirst _).mpr ⟨c.watched.take 4, [], ?_, ?_⟩⟩
  · decide +kernel
  · decide +kernel

/-- Connecting may take no time at all, and that is not told. -/
theorem connecting_unchecked :
    ¬ ∀ env : Environment, let c := ofEnvironment env
      c.validate = .ok () ↔ NoneZero c.times ∧ c.SizesFit := by
  intro h
  let env : Environment := fun variableName =>
    if variableName = "REDIS_CONNECT_TIMEOUT_MS" then some "0" else none
  have hvalid : (ofEnvironment env).validate = .ok () := rfl
  have hzero := ((h env).mp hvalid).1
  revert hzero
  decide +kernel

end Config

end Turnstile
