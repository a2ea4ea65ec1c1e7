import Turnstile.Redis.Client

/-! # Lifetimes on the wire

A lifetime is sent as a number of milliseconds, in the request that writes a key for a while. The
server grants what it reads there (`granted?`, `granted?_words`), so what is granted is
`lifetimeMillis`. A word of 64 bits can say only so much: a lifetime is granted in full (`InFull`)
if the number is that of its whole milliseconds, at least one, or the largest one if they are too
many.

The milliseconds of a lifetime are reduced modulo the size of a word. As long as they fit, the
lifetime is granted in full (`lifetimeMillis_of_lt`). Once they do not fit, the number begins again
at one, and it is only by the chance of a remainder that it is the largest (`inFull_iff`). A
lifetime that is not granted in full is overtaken by a shorter one, for which more is granted
(`le_of_inFull`, `inFull_of_le`). So lifetimes are granted in their order exactly as far as they are
granted in full, and for the settings, which are whole seconds, that is up to 18446744073709551 of
them (`granted_in_full_iff`). Longer settings are valid, too, and are cut short (`cut_short_lock`).
-/

namespace Turnstile.Redis

open Turnstile.Text Turnstile.Time Client

/-- The milliseconds for which a request has the server keep a key. -/
def granted? : List String → Option Nat
  | ["SET", _, _, "NX", "PX", millis] | ["PSETEX", _, millis, _] =>
    (Decimal.readUInt64 millis.toList).toOption.map UInt64.toNat
  | _ => none

/-- The milliseconds of a lifetime, as far as a word can say them; at least one. -/
def wholeMillis (d : Span) : Nat := max 1 (min d.millis (UInt64.size - 1))

/-- The lifetime is not cut short. -/
def InFull (d : Span) : Prop := wholeMillis d ≤ lifetimeMillis d

instance (d : Span) : Decidable (InFull d) := by
  unfold InFull; infer_instance

variable {a d : Span}

theorem millis_mono (h : a ≤ d) : a.millis ≤ d.millis := Nat.div_le_div_right h

theorem lifetimeMillis_lt (d : Span) : lifetimeMillis d < UInt64.size := by
  have hmod : d.millis % UInt64.size < UInt64.size := Nat.mod_lt _ (by decide)
  have hone : 1 < UInt64.size := by decide
  unfold lifetimeMillis
  omega

/-- **What is granted** is read off the request, be it one that takes a lock or one that keeps a
value. -/
theorem granted?_words (key value : String) (d : Span) :
    granted? (words (.setIfAbsent key value d)) = some (lifetimeMillis d) ∧
      granted? (words (.set key value (some d))) = some (lifetimeMillis d) := by
  have hread : (Decimal.readUInt64 (lifetimeWord d).toList).toOption.map UInt64.toNat =
      some (lifetimeMillis d) := by
    have hword : (UInt64.ofNat (lifetimeMillis d)).toNat = lifetimeMillis d :=
      UInt64.toNat_ofNat_of_lt (lifetimeMillis_lt d)
    have hdigits := Decimal.readUInt64_digits (UInt64.ofNat (lifetimeMillis d))
    rw [hword] at hdigits
    rw [lifetimeWord, Sweep.argument, String.toList_ofList, hdigits]
    exact congrArg some hword
  exact ⟨hread, hread⟩

theorem lifetimeMillis_of_lt (h : d.millis < UInt64.size) : lifetimeMillis d = max 1 d.millis := by
  rw [lifetimeMillis, Nat.mod_eq_of_lt h, Nat.max_comm]

/-- **Lifetimes in full.** They fit a word, or their remainder is by chance the largest word. -/
theorem inFull_iff : InFull d ↔
    d.millis < UInt64.size ∨ d.millis % UInt64.size = UInt64.size - 1 := by
  have hsize : 2 < UInt64.size := by decide
  rcases Nat.lt_or_ge d.millis UInt64.size with hlt | hge
  · refine iff_of_true ?_ (Or.inl hlt)
    rw [InFull, wholeMillis, lifetimeMillis_of_lt hlt]
    omega
  · have hmod : d.millis % UInt64.size < UInt64.size := Nat.mod_lt _ (by decide)
    rw [InFull, wholeMillis, lifetimeMillis]
    omega

theorem le_of_inFull (h : InFull d) (had : a ≤ d) : lifetimeMillis a ≤ lifetimeMillis d := by
  have hmillis := millis_mono had
  have hword := lifetimeMillis_lt a
  rw [InFull, wholeMillis] at h
  rcases Nat.lt_or_ge d.millis UInt64.size with hlt | hge
  · rw [lifetimeMillis_of_lt (Nat.lt_of_le_of_lt hmillis hlt)]
    omega
  · omega

/-- A lifetime that no shorter one overtakes is one in full: else the largest that fits a word would
overtake it. -/
theorem inFull_of_le (h : ∀ a ≤ d, lifetimeMillis a ≤ lifetimeMillis d) : InFull d := by
  rcases Nat.lt_or_ge d.millis UInt64.size with hlt | hge
  · exact inFull_iff.mpr (Or.inl hlt)
  · have hlargest : (Span.ofMillis (UInt64.size - 1)).millis = UInt64.size - 1 := by decide
    have hshorter : Span.ofMillis (UInt64.size - 1) ≤ d := by
      have hsize : UInt64.size = 18446744073709551616 := rfl
      rw [Span.millis] at hge
      show (UInt64.size - 1) * 1000000 ≤ d.nanos
      omega
    have hle := h _ hshorter
    rw [lifetimeMillis_of_lt (by rw [hlargest]; decide), hlargest] at hle
    rw [InFull, wholeMillis]
    omega

/-- The lifetimes that are configured, in the order of their settings. -/
def configured (c : Config) : List (UInt64 × Span) :=
  [(c.idempotency.lockSeconds, c.idempotency.lockLifetime),
    (c.cache.productSeconds, c.cache.productLifetime),
    (c.cache.curationSeconds, c.cache.curationLifetime),
    (c.cache.refreshTokenSeconds, c.cache.refreshTokenLifetime)]

/-- A setting is in whole seconds, so its milliseconds are even and never leave the largest
remainder. -/
theorem inFull_ofSeconds (n : Nat) : InFull (.ofSeconds n) ↔ n ≤ 18446744073709551 := by
  have hsize : UInt64.size = 18446744073709551616 := rfl
  have hmillis : (Span.ofSeconds n).millis = n * 1000 := by
    rw [Span.millis, Span.nanos_ofSeconds]
    omega
  rw [inFull_iff, hmillis, hsize]
  omega

/-- **What becomes of a lifetime on the wire.** It is granted in full exactly if its milliseconds
fit a word, or leave the largest remainder; and exactly then no shorter one is granted more. -/
theorem granted_in_full_iff (key value : String) (d : Span) :
    (granted? (words (.setIfAbsent key value d)) = some (lifetimeMillis d) ∧
        granted? (words (.set key value (some d))) = some (lifetimeMillis d)) ∧
      (InFull d ↔ d.millis < UInt64.size ∨ d.millis % UInt64.size = UInt64.size - 1) ∧
      ((∀ a ≤ d, lifetimeMillis a ≤ lifetimeMillis d) ↔ InFull d) ∧
      ∀ c, ∀ x ∈ configured c, InFull x.2 ↔ x.1 ≤ 18446744073709551 := by
  refine ⟨granted?_words key value d, inFull_iff, ⟨inFull_of_le, fun h a => le_of_inFull h⟩, ?_⟩
  intro c x hx
  have hseconds : x.2 = .ofSeconds x.1.toNat := by
    simp only [configured, List.mem_cons, List.not_mem_nil, or_false] at hx
    rcases hx with rfl | rfl | rfl | rfl <;> rfl
  rw [hseconds, inFull_ofSeconds, UInt64.le_iff_toNat_le]
  rfl

/-- An operator sets the lifetime of locks to more seconds than a word has milliseconds for. -/
def longLock : Config.Environment := fun variableName =>
  if variableName = "IDEMPOTENCY_LOCK_TTL_SECS" then some "18446744073709552" else none

/-- The setting is valid, and it has locks last for less than half a second. Without it they last
for a second. -/
theorem cut_short_lock :
    ¬ ∀ c c' : Config, c.validate = .ok () → c'.validate = .ok () →
      c.idempotency.lockLifetime ≤ c'.idempotency.lockLifetime →
        lifetimeMillis c.idempotency.lockLifetime ≤ lifetimeMillis c'.idempotency.lockLifetime ∧
          InFull c'.idempotency.lockLifetime := by
  intro h
  have hcut := h .default (.ofEnvironment longLock) rfl rfl (by decide +kernel)
  revert hcut
  decide +kernel

end Turnstile.Redis
