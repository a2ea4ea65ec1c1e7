import Turnstile.Config
import Turnstile.Proofs.Text.Decimal

/-! # What an environment sets

Nine of the settings are numbers, and each has a variable of its own (`Config.numbers`); the tenth is
the address of the store. A variable says a number if its text, without the white space at its ends,
is one in the sense of the grammar (`Tells`).

* `value_ofEnvironment`: a number is read from its own variable and from nothing else;
* `number_of_tells`, `number_of_not_tells`: it is the one that the variable says, and the default if
  the variable says none;
* `Written.tells`: leading zeros, a plus and white space do not change what is said.

Put together, an environment that writes out all settings loads exactly those, and a change of one
variable is a change of one setting (`ofEnvironment_exact`). -/

namespace Turnstile

open Turnstile.Text

namespace Text.Decimal

theorem not_isBlank_of_isDigit {c : Char} (h : c.isDigit = true) : Blank.isBlank c = false := by
  have hrange : 48 ≤ c.toNat ∧ c.toNat ≤ 57 := by
    simpa [Char.isDigit, Char.le_def, UInt32.le_iff_toNat_le] using h
  simp only [Blank.isBlank, Blank.ranges, List.any_cons, List.any_nil, Bool.or_false,
    Bool.or_eq_false_iff, Bool.and_eq_false_iff, decide_eq_false_iff_not]
  omega

theorem Unsigned.not_isBlank {cs : List Char} {n : Nat} (h : Unsigned cs n) :
    ∀ c ∈ cs, Blank.isBlank c = false := by
  rcases h with h | ⟨ds, rfl, h⟩
  · exact fun c hc => not_isBlank_of_isDigit (h.digits c hc)
  · intro c hc
    rcases List.mem_cons.mp hc with rfl | hc
    · rfl
    · exact not_isBlank_of_isDigit (h.digits c hc)

theorem Denotes.zeros_append {zeros cs : List Char} {n : Nat} (h : Denotes cs n)
    (hzeros : ∀ c ∈ zeros, c = '0') : Denotes (zeros ++ cs) n := by
  induction zeros with
  | nil => exact h
  | cons c zeros ih =>
    obtain ⟨rfl, hrest⟩ := List.forall_mem_cons.mp hzeros
    have hdenotes := ih hrest
    refine ⟨List.cons_ne_nil _ _, ?_, ?_⟩
    · exact List.forall_mem_cons.mpr ⟨by decide, hdenotes.digits⟩
    · have hzero : Nat.ofDigitChars 10 ('0' :: (zeros ++ cs)) 0 =
          Nat.ofDigitChars 10 (zeros ++ cs) 0 := rfl
      exact hzero.trans hdenotes.value

end Text.Decimal

namespace Config

/-! ### What a variable says -/

/-- The text is a number, but for white space at its ends. -/
def Tells (setting : String) (n : Nat) : Prop :=
  ∃ before core after, setting.toList = before ++ core ++ after ∧
    (∀ c ∈ before, Blank.isBlank c = true) ∧ (∀ c ∈ after, Blank.isBlank c = true) ∧
    Decimal.Unsigned core n

/-- The text is a number's digits, perhaps behind zeros, a plus and white space, and perhaps with
white space behind them. -/
def Written (setting : String) (n : Nat) : Prop :=
  ∃ before sign zeros after,
    setting.toList = before ++ (sign ++ (zeros ++ Decimal.digits n)) ++ after ∧
    (∀ c ∈ before, Blank.isBlank c = true) ∧ (∀ c ∈ after, Blank.isBlank c = true) ∧
    (sign = [] ∨ sign = ['+']) ∧ ∀ c ∈ zeros, c = '0'

theorem Written.tells {setting : String} {n : Nat} (h : Written setting n) : Tells setting n := by
  obtain ⟨before, sign, zeros, after, heq, hbefore, hafter, hsign, hzeros⟩ := h
  refine ⟨before, sign ++ (zeros ++ Decimal.digits n), after, heq, hbefore, hafter, ?_⟩
  have hdenotes : Decimal.Denotes (zeros ++ Decimal.digits n) n :=
    (Decimal.denotes_digits n).zeros_append hzeros
  rcases hsign with rfl | rfl
  · exact Or.inl hdenotes
  · exact Or.inr ⟨_, rfl, hdenotes⟩

theorem tells_iff {setting : String} {n : Nat} :
    Tells setting n ↔ Decimal.Unsigned (Blank.trim setting.toList) n := by
  constructor
  · rintro ⟨before, core, after, heq, hbefore, hafter, h⟩
    rw [heq, Blank.trim_append hbefore hafter
      (fun c hc => h.not_isBlank c (List.mem_of_mem_head? hc))
      (fun c hc => h.not_isBlank c (List.mem_of_mem_getLast? hc))]
    exact h
  · intro h
    obtain ⟨before, after, heq, hbefore, hafter, -⟩ := Blank.trim_eq_iff.mp rfl
    exact ⟨before, _, after, heq, hbefore, hafter, h⟩

theorem read_trim_eq_ok_iff {setting : String} {n : UInt64} :
    Decimal.readUInt64 (Blank.trim setting.toList) = .ok n ↔ Tells setting n.toNat := by
  rw [Decimal.readUInt64_eq_ok_iff, tells_iff]

/-! ### Numbers among the settings -/

section number

variable {env : Environment} {variableName : String} {otherwise n : UInt64}

theorem number_of_tells {setting : String} (hset : env variableName = some setting)
    (h : Tells setting n.toNat) : number env variableName otherwise = n := by
  have hread := read_trim_eq_ok_iff.mpr h
  simp only [number, hset, hread, Except.toOption, Option.getD_some]

theorem number_of_not_tells
    (h : ∀ setting, env variableName = some setting → ∀ m < UInt64.size, ¬ Tells setting m) :
    number env variableName otherwise = otherwise := by
  unfold number
  cases hset : env variableName with
  | none => rfl
  | some setting =>
    cases hread : Decimal.readUInt64 (Blank.trim setting.toList) with
    | error refusal => simp only [hread, Except.toOption, Option.getD_none]
    | ok m =>
      have htells := read_trim_eq_ok_iff.mp hread
      exact absurd htells (h setting hset _ m.toNat_lt_size)

end number

/-- A setting that is a number: the variable that sets it, and where it is found. -/
structure NumberSetting where
  variableName : String
  value : Config → UInt64

/-- The settings that are numbers. -/
def numbers : List NumberSetting :=
  [⟨"REDIS_CONNECT_TIMEOUT_MS", (·.redis.connectTimeoutMillis)⟩,
    ⟨"REDIS_COMMAND_TIMEOUT_MS", (·.redis.commandTimeoutMillis)⟩,
    ⟨"IDEMPOTENCY_LOCK_TTL_SECS", (·.idempotency.lockSeconds)⟩,
    ⟨"IDEMPOTENCY_MAX_BODY_BYTES", (·.idempotency.maxBodyBytes)⟩,
    ⟨"CACHE_PRODUCT_TTL_SECS", (·.cache.productSeconds)⟩,
    ⟨"CACHE_CURATION_TTL_SECS", (·.cache.curationSeconds)⟩,
    ⟨"REFRESH_TOKEN_TTL_SECS", (·.cache.refreshTokenSeconds)⟩,
    ⟨"PAGINATION_DEFAULT_SIZE", (·.paging.defaultSize)⟩,
    ⟨"PAGINATION_MAX_SIZE", (·.paging.maxSize)⟩]

theorem value_ofEnvironment (env : Environment) : ∀ s ∈ numbers,
    s.value (ofEnvironment env) = number env s.variableName (s.value default) := by
  simp [numbers, ofEnvironment]

theorem eq_of_numbers {c d : Config} (hurl : c.redis.url = d.redis.url)
    (hnumbers : ∀ s ∈ numbers, s.value c = s.value d) : c = d := by
  obtain ⟨⟨_, _, _⟩, ⟨_, _⟩, ⟨_, _, _⟩, ⟨_, _⟩⟩ := c
  obtain ⟨⟨_, _, _⟩, ⟨_, _⟩, ⟨_, _, _⟩, ⟨_, _⟩⟩ := d
  simp_all [numbers]

/-- The variables, each of which sets something else. -/
def variableNames : List String := "REDIS_URL" :: numbers.map (·.variableName)

/-- The environment with one variable set anew, or removed. -/
def Environment.change (env : Environment) (variableName : String) (setting : Option String) :
    Environment :=
  fun other => if other = variableName then setting else env other

/-- **Loading is complete and keeps settings apart.** Settings that an environment writes out, the
numbers in decimal and the address as it is, are the ones that load. In every environment a number is
what its variable says, if that is below 2^64, and the default otherwise, and the address is what its
variable holds, or the default. And a change of one variable changes no setting but its own. -/
theorem ofEnvironment_exact :
    (∀ (c : Config) (env : Environment), env "REDIS_URL" = some c.redis.url →
      (∀ s ∈ numbers, ∃ setting, env s.variableName = some setting ∧
        Written setting (s.value c).toNat) →
      ofEnvironment env = c) ∧
    (∀ env : Environment,
      (ofEnvironment env).redis.url = (env "REDIS_URL").getD default.redis.url ∧
      ∀ s ∈ numbers,
        (∀ setting n, env s.variableName = some setting → n < UInt64.size → Tells setting n →
          (s.value (ofEnvironment env)).toNat = n) ∧
        ((∀ setting, env s.variableName = some setting → ∀ n < UInt64.size, ¬ Tells setting n) →
          s.value (ofEnvironment env) = s.value default)) ∧
    variableNames.Nodup ∧
    ∀ (env : Environment) (variableName : String) (setting : Option String),
      let changed := ofEnvironment (env.change variableName setting)
      (variableName ≠ "REDIS_URL" → changed.redis.url = (ofEnvironment env).redis.url) ∧
      ∀ s ∈ numbers, variableName ≠ s.variableName →
        s.value changed = s.value (ofEnvironment env) := by
  refine ⟨fun c env hurl hnumbers => ?_, fun env => ⟨rfl, fun s hs => ⟨?_, ?_⟩⟩, by decide,
    fun env variableName setting => ⟨?_, fun s hs hne => ?_⟩⟩
  · refine eq_of_numbers ?_ fun s hs => ?_
    · have hloaded : (ofEnvironment env).redis.url = (env "REDIS_URL").getD default.redis.url := rfl
      rw [hloaded, hurl, Option.getD_some]
    · obtain ⟨setting, hset, hwritten⟩ := hnumbers s hs
      rw [value_ofEnvironment env s hs, number_of_tells hset hwritten.tells]
  · intro setting n hset hn htells
    have hword : (UInt64.ofNat n).toNat = n := UInt64.toNat_ofNat_of_lt' hn
    have hnumber : number env s.variableName (s.value default) = UInt64.ofNat n :=
      number_of_tells hset (by rw [hword]; exact htells)
    rw [value_ofEnvironment env s hs, hnumber, hword]
  · intro h
    rw [value_ofEnvironment env s hs, number_of_not_tells h]
  · intro hne
    have hsame : env.change variableName setting "REDIS_URL" = env "REDIS_URL" := if_neg hne.symm
    have hloaded : ∀ env : Environment,
        (ofEnvironment env).redis.url = (env "REDIS_URL").getD default.redis.url := fun _ => rfl
    rw [hloaded, hloaded, hsame]
  · have hsame : env.change variableName setting s.variableName = env s.variableName :=
      if_neg hne.symm
    rw [value_ofEnvironment _ s hs, value_ofEnvironment _ s hs, number, number, hsame]

/-- Settings in which all numbers are the greatest there is. -/
def boundless : Config where
  redis := ⟨" redis://[::1]:6380/2", 18446744073709551615, 18446744073709551615⟩
  idempotency := ⟨18446744073709551615, 18446744073709551615⟩
  cache := ⟨18446744073709551615, 18446744073709551615, 18446744073709551615⟩
  paging := ⟨18446744073709551615, 18446744073709551615⟩

/-- The number in an odd way. -/
def boundlessSetting : String := "\u2003\t+0018446744073709551615 \n"

/-- An environment that sets all of them in that way. -/
def boundlessEnvironment : Environment := fun variableName =>
  if variableName = "REDIS_URL" then some " redis://[::1]:6380/2" else some boundlessSetting

theorem ofEnvironment_exact_boundless :
    Written boundlessSetting 18446744073709551615 ∧
      ofEnvironment boundlessEnvironment = boundless ∧
      (ofEnvironment (boundlessEnvironment.change "PAGINATION_MAX_SIZE" (some "1_0"))).paging =
        ⟨18446744073709551615, 100⟩ := by
  have hwritten : Written boundlessSetting 18446744073709551615 :=
    ⟨['\u2003', '\t'], ['+'], ['0', '0'], [' ', '\n'], by decide +kernel,
      List.all_eq_true.mp (by decide), List.all_eq_true.mp (by decide), Or.inr rfl, by simp⟩
  obtain ⟨hall, -⟩ := ofEnvironment_exact
  have hloaded : ofEnvironment boundlessEnvironment = boundless := by
    refine hall boundless boundlessEnvironment rfl fun s hs => ⟨boundlessSetting, ?_, ?_⟩
    · revert s
      simp [numbers, boundlessEnvironment]
    · have hmost : s.value boundless = 18446744073709551615 := by
        revert s
        simp [numbers, boundless]
      rw [hmost]
      exact hwritten
  exact ⟨hwritten, hloaded, by decide +kernel⟩

end Config

end Turnstile
