import Turnstile.Json.Token

/-! # Which texts are numbers

The lexer knows a number by the phases that its characters lead through. Here is the grammar that the
phases follow (`Numeral`): perhaps a minus, a whole part without needless zeros, perhaps a fraction,
perhaps an exponent. For each phase there is a lemma that tells what may still come (`ends_zero_iff`
and the like); the one for the beginning is the grammar (`isNumber_iff`). -/

namespace Turnstile.Json

/-! ### The grammar -/

/-- One part and then another. -/
def Seq (P Q : List Char → Prop) (cs : List Char) : Prop := ∃ before after, cs = before ++ after ∧
  P before ∧ Q after

/-- Nothing, or the part. -/
def Optional (P : List Char → Prop) (cs : List Char) : Prop := cs = [] ∨ P cs

/-- A character of a kind, and then a part. -/
def Led (kind : Char → Prop) (P : List Char → Prop) (cs : List Char) : Prop :=
  ∃ c rest, cs = c :: rest ∧ kind c ∧ P rest

/-- Any number of digits. -/
def Digits (cs : List Char) : Prop := ∀ c ∈ cs, c.isDigit = true

/-- A whole number: zero alone, or digits of which the first is not zero. -/
def Whole (cs : List Char) : Prop :=
  cs = ['0'] ∨ Led (fun c => c.isDigit = true ∧ c ≠ '0') Digits cs

/-- A point and digits, at least one. -/
def Fraction : List Char → Prop := Led (· = '.') (Led (·.isDigit = true) Digits)

/-- A mark, perhaps a sign, and digits, at least one. -/
def Exponent : List Char → Prop :=
  Led (fun c => c = 'e' ∨ c = 'E')
    (Seq (Optional fun sign => sign = ['+'] ∨ sign = ['-']) (Led (·.isDigit = true) Digits))

/-- A number as JSON writes it. -/
def Numeral : List Char → Prop :=
  Seq (Optional (· = ['-'])) (Seq Whole (Seq (Optional Fraction) (Optional Exponent)))

section parts

variable {P Q : List Char → Prop} {kind : Char → Prop} {c : Char} {cs : List Char}

theorem seq_optional : Seq (Optional P) Q cs ↔ Q cs ∨ Seq P Q cs := by
  constructor
  · rintro ⟨before, after, rfl, rfl | hP, hQ⟩
    · exact Or.inl hQ
    · exact Or.inr ⟨before, after, rfl, hP, hQ⟩
  · rintro (hQ | ⟨before, after, rfl, hP, hQ⟩)
    · exact ⟨[], cs, rfl, Or.inl rfl, hQ⟩
    · exact ⟨before, after, rfl, Or.inr hP, hQ⟩

theorem optional_cons : Optional P (c :: cs) ↔ P (c :: cs) := by simp [Optional]

theorem led_nil : ¬ Led kind P [] := by simp [Led]

theorem led_cons : Led kind P (c :: cs) ↔ kind c ∧ P cs := by
  constructor
  · rintro ⟨d, rest, heq, hd, hP⟩
    obtain ⟨rfl, rfl⟩ := List.cons.inj heq
    exact ⟨hd, hP⟩
  · rintro ⟨hc, hP⟩
    exact ⟨c, cs, rfl, hc, hP⟩

theorem seq_led_nil : ¬ Seq (Led kind P) Q [] := by
  rintro ⟨before, after, heq, ⟨c, rest, rfl, -⟩, -⟩
  cases heq

theorem seq_led_cons : Seq (Led kind P) Q (c :: cs) ↔ kind c ∧ Seq P Q cs := by
  constructor
  · rintro ⟨before, after, heq, ⟨d, rest, rfl, hd, hP⟩, hQ⟩
    obtain ⟨rfl, rfl⟩ := List.cons.inj heq
    exact ⟨hd, rest, after, rfl, hP, hQ⟩
  · rintro ⟨hc, before, after, rfl, hP, hQ⟩
    exact ⟨c :: before, after, rfl, ⟨c, before, rfl, hc, hP⟩, hQ⟩

theorem seq_singleton_nil {d : Char} : ¬ Seq (· = [d]) Q [] := by
  rintro ⟨before, after, heq, rfl, -⟩
  cases heq

theorem seq_singleton_cons {d : Char} : Seq (· = [d]) Q (c :: cs) ↔ c = d ∧ Q cs := by
  constructor
  · rintro ⟨before, after, heq, rfl, hQ⟩
    obtain ⟨rfl, rfl⟩ := List.cons.inj heq
    exact ⟨rfl, hQ⟩
  · rintro ⟨rfl, hQ⟩
    exact ⟨[c], cs, rfl, rfl, hQ⟩

theorem seq_or {R : List Char → Prop} :
    Seq (fun x => P x ∨ R x) Q cs ↔ Seq P Q cs ∨ Seq R Q cs := by
  constructor
  · rintro ⟨before, after, rfl, hP | hR, hQ⟩
    · exact Or.inl ⟨before, after, rfl, hP, hQ⟩
    · exact Or.inr ⟨before, after, rfl, hR, hQ⟩
  · rintro (⟨before, after, rfl, hP, hQ⟩ | ⟨before, after, rfl, hR, hQ⟩)
    · exact ⟨before, after, rfl, Or.inl hP, hQ⟩
    · exact ⟨before, after, rfl, Or.inr hR, hQ⟩

theorem seq_digits_nil : Seq Digits Q [] ↔ Q [] := by
  constructor
  · rintro ⟨before, after, heq, -, hQ⟩
    obtain ⟨rfl, rfl⟩ := List.append_eq_nil_iff.mp heq.symm
    exact hQ
  · exact fun hQ => ⟨[], [], rfl, nofun, hQ⟩

theorem seq_digits_cons :
    Seq Digits Q (c :: cs) ↔ Q (c :: cs) ∨ c.isDigit = true ∧ Seq Digits Q cs := by
  constructor
  · rintro ⟨before, after, heq, hdigits, hQ⟩
    cases before with
    | nil =>
      obtain rfl : c :: cs = after := heq
      exact Or.inl hQ
    | cons d before =>
      obtain ⟨rfl, rfl⟩ := List.cons.inj heq
      obtain ⟨hc, hrest⟩ := List.forall_mem_cons.mp hdigits
      exact Or.inr ⟨hc, before, after, rfl, hrest, hQ⟩
  · rintro (hQ | ⟨hc, before, after, rfl, hdigits, hQ⟩)
    · exact ⟨[], c :: cs, rfl, nofun, hQ⟩
    · exact ⟨c :: before, after, rfl, List.forall_mem_cons.mpr ⟨hc, hdigits⟩, hQ⟩

end parts

/-! ### The phases -/

namespace Phase

/-- The phase after some characters, if the number goes on with them. -/
def run (p : Phase) (cs : List Char) : Option Phase := cs.foldlM next? p

/-- The phase at the end of a lexeme. -/
def ofLexeme? : List Char → Option Phase
  | '-' :: cs => run .sign cs
  | cs => run .sign cs

/-- The characters lead from the phase to the end of a number. -/
def Ends (p : Phase) (cs : List Char) : Prop := ∃ q, run p cs = some q ∧ q.mayEnd = true

theorem ends_nil {p : Phase} : p.Ends [] ↔ p.mayEnd = true := by
  simp [Ends, run]

theorem ends_cons {p : Phase} {c : Char} {cs : List Char} :
    p.Ends (c :: cs) ↔ ∃ q, p.next? c = some q ∧ q.Ends cs := by
  simp only [Ends, run, List.foldlM_cons, bind, Option.bind_eq_some_iff]
  constructor
  · rintro ⟨q, ⟨p', hp', hq⟩, hend⟩
    exact ⟨p', hp', q, hq, hend⟩
  · rintro ⟨p', hp', q, hq, hend⟩
    exact ⟨q, ⟨p', hp', hq⟩, hend⟩

variable {cs : List Char}

theorem ends_exponent_iff : exponent.Ends cs ↔ Digits cs := by
  induction cs with
  | nil => simp [ends_nil, mayEnd, Digits]
  | cons c cs ih =>
    rw [ends_cons, Digits, List.forall_mem_cons, ← Digits, ← ih]
    by_cases hc : c.isDigit = true <;> simp [next?, hc]

theorem ends_markSign_iff : markSign.Ends cs ↔ Led (·.isDigit = true) Digits cs := by
  cases cs with
  | nil => simp [ends_nil, mayEnd, led_nil]
  | cons c cs =>
    rw [ends_cons, led_cons, ← ends_exponent_iff]
    by_cases hc : c.isDigit = true <;> simp [next?, hc]

theorem ends_mark_iff : mark.Ends cs ↔
    Seq (Optional fun sign => sign = ['+'] ∨ sign = ['-']) (Led (·.isDigit = true) Digits) cs := by
  rw [seq_optional, seq_or]
  cases cs with
  | nil => simp [ends_nil, mayEnd, led_nil, seq_singleton_nil]
  | cons c cs =>
    rw [ends_cons, seq_singleton_cons, seq_singleton_cons, led_cons, ← ends_markSign_iff,
      ← ends_exponent_iff]
    by_cases hc : c.isDigit = true
    · have hplus : c ≠ '+' := by rintro rfl; cases hc
      have hminus : c ≠ '-' := by rintro rfl; cases hc
      simp [next?, hc, hplus, hminus]
    · by_cases hsign : c = '+' ∨ c = '-'
      · simp [next?, hc, hsign, ← or_and_right]
      · simp [next?, hc, hsign, ← or_and_right]

theorem exponent_cons {c : Char} : Exponent (c :: cs) ↔ (c = 'e' ∨ c = 'E') ∧ mark.Ends cs :=
  led_cons.trans (and_congr_right fun _ => ends_mark_iff.symm)

theorem ends_fraction_iff : fraction.Ends cs ↔ Seq Digits (Optional Exponent) cs := by
  induction cs with
  | nil => simp [ends_nil, mayEnd, seq_digits_nil, Optional]
  | cons c cs ih =>
    rw [ends_cons, seq_digits_cons, optional_cons, exponent_cons, ← ih]
    by_cases hc : c.isDigit = true
    · have hmark : ¬ (c = 'e' ∨ c = 'E') := by rintro (rfl | rfl) <;> cases hc
      simp [next?, hc, hmark]
    · by_cases hmark : c = 'e' ∨ c = 'E' <;> simp [next?, hc, hmark]

theorem ends_point_iff : point.Ends cs ↔
    Seq (Led (·.isDigit = true) Digits) (Optional Exponent) cs := by
  cases cs with
  | nil => simp [ends_nil, mayEnd, seq_led_nil]
  | cons c cs =>
    rw [ends_cons, seq_led_cons, ← ends_fraction_iff]
    by_cases hc : c.isDigit = true <;> simp [next?, hc]

theorem ends_zero_iff : zero.Ends cs ↔ Seq (Optional Fraction) (Optional Exponent) cs := by
  rw [seq_optional]
  cases cs with
  | nil => simp [ends_nil, mayEnd, Optional]
  | cons c cs =>
    rw [ends_cons, optional_cons, exponent_cons, Fraction, seq_led_cons, ← ends_point_iff]
    by_cases hpoint : c = '.'
    · simp [next?, hpoint]
    · by_cases hmark : c = 'e' ∨ c = 'E' <;> simp [next?, hpoint, hmark]

theorem ends_whole_iff :
    whole.Ends cs ↔ Seq Digits (Seq (Optional Fraction) (Optional Exponent)) cs := by
  induction cs with
  | nil => simp [ends_nil, mayEnd, seq_digits_nil, ← ends_zero_iff]
  | cons c cs ih =>
    rw [ends_cons, seq_digits_cons, ← ends_zero_iff, ends_cons, ← ih]
    by_cases hc : c.isDigit = true
    · have hpoint : c ≠ '.' := by rintro rfl; cases hc
      have hmark : ¬ (c = 'e' ∨ c = 'E') := by rintro (rfl | rfl) <;> cases hc
      simp [next?, hc, hpoint, hmark]
    · simp [next?, hc]

theorem ends_sign_iff :
    sign.Ends cs ↔ Seq Whole (Seq (Optional Fraction) (Optional Exponent)) cs := by
  have hwhole : Seq Whole (Seq (Optional Fraction) (Optional Exponent)) cs ↔ _ := seq_or
  rw [hwhole]
  cases cs with
  | nil => simp [ends_nil, mayEnd, seq_singleton_nil, seq_led_nil]
  | cons c cs =>
    rw [ends_cons, seq_singleton_cons, seq_led_cons, ← ends_zero_iff, ← ends_whole_iff]
    by_cases hzero : c = '0'
    · simp [next?, hzero]
    · by_cases hc : c.isDigit = true <;> simp [next?, hzero, hc]

end Phase

/-- The lexeme of a number. -/
def IsNumber (lexeme : List Char) : Prop := ∃ p, Phase.ofLexeme? lexeme = some p ∧ p.mayEnd = true

/-- **The lexer knows the numbers.** -/
theorem isNumber_iff {cs : List Char} : IsNumber cs ↔ Numeral cs := by
  have hends : IsNumber cs ↔ ∃ p, Phase.ofLexeme? cs = some p ∧ p.mayEnd = true := Iff.rfl
  rw [hends, Numeral, seq_optional]
  unfold Phase.ofLexeme?
  split
  · next cs =>
    rw [seq_singleton_cons, ← Phase.ends_sign_iff, ← Phase.ends_sign_iff, Phase.ends_cons]
    simp [Phase.next?, Phase.Ends]
  · next cs hminus =>
    rw [← Phase.ends_sign_iff]
    refine ⟨Or.inl, fun h => h.resolve_right ?_⟩
    rintro ⟨before, after, heq, rfl, -⟩
    exact hminus after heq

end Turnstile.Json
