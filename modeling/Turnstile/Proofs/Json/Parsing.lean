import Mathlib.Tactic.SplitIfs
import Turnstile.Proofs.Json.Grammar

/-! # Texts are read by the grammar

The texts that are read as a tree are the texts of the tree (`parse_eq_some_iff`). For the assembly
of the tokens that is known; here is the lexer, character by character in both directions.

* What is taken for tokens is written as tokens (`spelled_of_tokens?`). What the lexer has read is
  whole tokens and the beginning of one more, as its mode tells (`Mode.Begun`, `State.Read`), and a
  character keeps that (`State.Read.step`).
* What is written as tokens is taken for them (`tokens?_of_spelled`), unless a number is written
  right behind another one (`Separate`), which happens in no tree. A number may still go on when the
  next token begins (`State.Ends`); any token but a number ends it (`run_token`). -/

namespace Turnstile.Json

open Turnstile.Text

namespace Phase

variable {c : Char} {cs : List Char} {p q : Phase}

theorem ofLexeme?_singleton (h : sign.next? c = some p) : ofLexeme? [c] = some p := by
  unfold ofLexeme?
  split
  · next heq =>
    cases heq
    cases h
  · unfold run
    rw [List.foldlM_cons, h]
    rfl

theorem ofLexeme?_concat (hcs : ofLexeme? cs = some p) (hc : p.next? c = some q) :
    ofLexeme? (cs ++ [c]) = some q := by
  have hrun : ∀ {o : Phase} {ds : List Char}, run o ds = some p → run o (ds ++ [c]) = some q := by
    intro o ds h
    unfold run at h ⊢
    rw [List.foldlM_append, h]
    simp [hc]
  cases cs with
  | nil =>
    cases hcs
    exact ofLexeme?_singleton hc
  | cons d cs =>
    rw [List.cons_append]
    unfold ofLexeme? at hcs ⊢
    split at hcs
    · next heq =>
      cases heq
      exact hrun hcs
    · next hminus =>
      split
      · next heq =>
        cases heq
        exact absurd rfl (hminus cs)
      · exact hrun hcs

end Phase

namespace Lexer

theorem escaped?_eq_some_iff {letter c : Char} :
    escaped? letter = some c ↔ (letter, c) ∈ shortEscapes := by
  constructor
  · intro h
    unfold escaped? at h
    split at h <;> cases h <;> decide
  · intro h
    simp only [shortEscapes, List.mem_cons, Prod.mk.injEq, List.not_mem_nil, or_false] at h
    rcases h with ⟨rfl, rfl⟩ | ⟨rfl, rfl⟩ | ⟨rfl, rfl⟩ | ⟨rfl, rfl⟩ | ⟨rfl, rfl⟩ | ⟨rfl, rfl⟩ |
      ⟨rfl, rfl⟩ | ⟨rfl, rfl⟩ <;> rfl

/-! ### What is taken for tokens -/

/-- The value of hexadecimal digits behind others. -/
inductive CodeRead : Nat → Nat → List Char → Prop where
  | nil : CodeRead 4 0 []
  | snoc {owed value d : Nat} {c : Char} {cs : List Char} (h : CodeRead (owed + 1) value cs)
      (hc : Hex.value? c = some d) : CodeRead owed (16 * value + d) (cs ++ [c])

theorem CodeRead.owed_le {owed value : Nat} {cs : List Char} (h : CodeRead owed value cs) :
    owed ≤ 4 := by
  induction h with
  | nil => exact Nat.le_refl 4
  | snoc _ _ ih => exact Nat.le_of_succ_le ih

theorem CodeRead.spelled {value : Nat} {cs : List Char} (h : CodeRead 0 value cs) :
    (Glyph.code (UInt16.ofNat value)).Spelled ('\\' :: 'u' :: cs) := by
  cases h with | snoc h hd =>
  cases h with | snoc h hc =>
  cases h with | snoc h hb =>
  cases h with | @snoc _ _ w _ _ h ha =>
  cases h with
  | nil =>
    rw [Nat.mul_zero, Nat.zero_add]
    exact .code ha hb hc hd
  | snoc h => exact absurd h.owed_le (by decide)

/-- The characters are the beginning of a token, as far as the mode tells. -/
inductive Mode.Begun : Mode → List Char → Prop where
  | between : Begun .between []
  | word {value : Json} {cs rest : List Char} (h : Token.Spelled (.scalar value) (cs ++ rest)) :
      Begun (.word rest value) cs
  | number {phase : Phase} {lexeme : List Char} (h : Phase.ofLexeme? lexeme.reverse = some phase) :
      Begun (.number phase lexeme) lexeme.reverse
  | text {glyphs : Literal} {cs : List Char} (h : Literal.Spelled glyphs.reverse cs) :
      Begun (.text glyphs) ('"' :: cs)
  | escape {glyphs : Literal} {cs : List Char} (h : Literal.Spelled glyphs.reverse cs) :
      Begun (.escape glyphs) ('"' :: (cs ++ ['\\']))
  | code {glyphs : Literal} {owed value : Nat} {cs ds : List Char}
      (h : Literal.Spelled glyphs.reverse cs) (hcode : CodeRead (owed + 1) value ds) :
      Begun (.code glyphs (owed + 1) value) ('"' :: (cs ++ '\\' :: 'u' :: ds))

/-- The text is whole tokens and the beginning of one. -/
def State.Read (s : State) (cs : List Char) : Prop :=
  ∃ before now, cs = before ++ now ∧ Spelled s.tokens.reverse before ∧ s.mode.Begun now

section reading

variable {ts : List Token} {before now : List Char} {c : Char}

theorem State.Read.start : State.start.Read [] := ⟨[], [], rfl, .nil spaces_nil, .between⟩

theorem State.Read.whole (h : Spelled ts.reverse before) {t : Token} (ht : t.Spelled now) :
    State.Read ⟨t :: ts, .between⟩ (before ++ now) := by
  refine ⟨before ++ now, [], (List.append_nil _).symm, ?_, .between⟩
  rw [List.reverse_cons]
  exact h.concat ht

theorem read_between (h : Spelled ts.reverse before) {s : State} (hs : between ts c = some s) :
    s.Read (before ++ [c]) := by
  have hbegin : ∀ {mode : Mode}, mode.Begun [c] → State.Read ⟨ts, mode⟩ (before ++ [c]) :=
    fun hmode => ⟨before, [c], rfl, h, hmode⟩
  have hspace : IsSpace c → State.Read ⟨ts, .between⟩ (before ++ [c]) := fun hc =>
    ⟨before ++ [c], [], (List.append_nil _).symm,
      h.append_spaces (List.forall_mem_singleton.mpr hc), .between⟩
  unfold between at hs
  split at hs
  case h_16 =>
    obtain ⟨p, hp, rfl⟩ := Option.map_eq_some_iff.mp hs
    exact hbegin (.number (Phase.ofLexeme?_singleton hp))
  all_goals cases hs
  case h_1 | h_2 | h_3 | h_4 => exact hspace (by decide)
  case h_5 => exact .whole h .openArray
  case h_6 => exact .whole h .closeArray
  case h_7 => exact .whole h .openObject
  case h_8 => exact .whole h .closeObject
  case h_9 => exact .whole h .comma
  case h_10 => exact .whole h .colon
  case h_11 => exact hbegin (.text .nil)
  case h_12 => exact hbegin (.word .null)
  case h_13 => exact hbegin (.word .yes)
  case h_14 => exact hbegin (.word .no)
  case h_15 => exact hbegin (.number rfl)

theorem State.Read.more (h : Spelled ts.reverse before) {mode : Mode}
    (hmode : mode.Begun (now ++ [c])) : State.Read ⟨ts, mode⟩ (before ++ now ++ [c]) :=
  ⟨before, now ++ [c], List.append_assoc _ _ _, h, hmode⟩

section modes

variable (hbefore : Spelled ts.reverse before) {s : State}
include hbefore

theorem read_word {rest : List Char} {value : Json}
    (h : Token.Spelled (.scalar value) (now ++ rest))
    (hs : step ⟨ts, .word rest value⟩ c = some s) : s.Read (before ++ now ++ [c]) := by
  unfold step at hs
  cases rest with
  | nil => cases hs
  | cons x rest =>
    dsimp only at hs
    rw [List.append_cons] at h
    split_ifs at hs with hx hrest
    all_goals
      cases hs
      rw [← hx] at h
    · rw [List.isEmpty_iff] at hrest
      rw [hrest, List.append_nil] at h
      rw [List.append_assoc]
      exact .whole hbefore h
    · exact .more hbefore (.word h)

/-- A character goes on with the number, or ends it and is read as if it came next. -/
theorem read_number {p : Phase} {lexeme : List Char} (h : Phase.ofLexeme? lexeme.reverse = some p)
    (hs : step ⟨ts, .number p lexeme⟩ c = some s) : s.Read (before ++ lexeme.reverse ++ [c]) := by
  unfold step at hs
  dsimp only at hs
  split at hs
  · next q hq =>
    cases hs
    refine .more hbefore ?_
    rw [← List.reverse_cons]
    refine .number ?_
    rw [List.reverse_cons]
    exact Phase.ofLexeme?_concat h hq
  · split_ifs at hs with hend
    refine read_between ?_ hs
    rw [List.reverse_cons]
    exact hbefore.concat (.number (isNumber_iff.mp ⟨p, h, hend⟩))

section strings

variable {glyphs : Literal} {cs : List Char} (h : Literal.Spelled glyphs.reverse cs)
include h

theorem read_glyph {g : Glyph} {x : List Char} (hg : g.Spelled (x ++ [c])) :
    State.Read ⟨ts, .text (g :: glyphs)⟩ (before ++ '"' :: (cs ++ x) ++ [c]) := by
  refine .more hbefore ?_
  rw [List.cons_append, List.append_assoc]
  refine .text ?_
  rw [List.reverse_cons]
  exact h.concat hg

theorem read_text (hs : step ⟨ts, .text glyphs⟩ c = some s) :
    s.Read (before ++ '"' :: cs ++ [c]) := by
  unfold step at hs
  dsimp only at hs
  split_ifs at hs with hquote hbackslash hcontrol
  all_goals cases hs
  · rw [List.append_assoc, hquote]
    exact .whole hbefore (.text h)
  · rw [hbackslash]
    exact .more hbefore (.escape h)
  · have hglyph := read_glyph (x := []) hbefore h
      (.plain hquote hbackslash (Nat.le_of_not_lt hcontrol))
    rwa [List.append_nil] at hglyph

theorem read_escape (hs : step ⟨ts, .escape glyphs⟩ c = some s) :
    s.Read (before ++ '"' :: (cs ++ ['\\']) ++ [c]) := by
  unfold step at hs
  dsimp only at hs
  split_ifs at hs with hu
  · cases hs
    refine .more hbefore ?_
    rw [hu, List.cons_append, List.append_assoc]
    exact .code h .nil
  · obtain ⟨x, hx, rfl⟩ := Option.map_eq_some_iff.mp hs
    exact read_glyph hbefore h (.short (escaped?_eq_some_iff.mp hx))

theorem read_code {owed value : Nat} {ds : List Char} (hcode : CodeRead (owed + 1) value ds)
    (hs : step ⟨ts, .code glyphs (owed + 1) value⟩ c = some s) :
    s.Read (before ++ '"' :: (cs ++ '\\' :: 'u' :: ds) ++ [c]) := by
  obtain ⟨d, hd, rfl⟩ := Option.map_eq_some_iff.mp hs
  have hmore := hcode.snoc hd
  cases owed with
  | zero => exact read_glyph hbefore h hmore.spelled
  | succ owed =>
    rw [if_neg (by omega)]
    refine .more hbefore ?_
    rw [List.cons_append, List.append_assoc]
    exact .code h hmore

end strings

end modes

/-- **One more character** keeps what has been read. -/
theorem State.Read.step {s s' : State} {cs : List Char} (h : s.Read cs)
    (hs : Lexer.step s c = some s') : s'.Read (cs ++ [c]) := by
  obtain ⟨before, now, rfl, hbefore, hnow⟩ := h
  obtain ⟨ts, mode⟩ := s
  cases hnow with
  | between =>
    rw [List.append_nil]
    exact read_between hbefore hs
  | word hword => exact read_word hbefore hword hs
  | number hphase => exact read_number hbefore hphase hs
  | text hglyphs => exact read_text hbefore hglyphs hs
  | escape hglyphs => exact read_escape hbefore hglyphs hs
  | code hglyphs hcode => exact read_code hbefore hglyphs hcode hs

theorem State.Read.run {s s' : State} {cs ds : List Char} (h : s.Read cs)
    (hs : Lexer.run s ds = some s') : s'.Read (cs ++ ds) := by
  induction ds generalizing s cs with
  | nil =>
    cases hs
    rwa [List.append_nil]
  | cons d ds ih =>
    rw [run_cons] at hs
    obtain ⟨t, ht, hs⟩ := Option.bind_eq_some_iff.mp hs
    rw [List.append_cons]
    exact ih (h.step ht) hs

theorem State.Read.finish {s : State} {cs : List Char} (h : s.Read cs)
    (hs : Lexer.finish s = some ts) : Spelled ts cs := by
  obtain ⟨before, now, rfl, hbefore, hnow⟩ := h
  obtain ⟨us, mode⟩ := s
  cases hnow with
  | between =>
    cases hs
    rwa [List.append_nil]
  | number hphase =>
    unfold Lexer.finish at hs
    dsimp only at hs
    split_ifs at hs with hend
    cases hs
    rw [List.reverse_cons]
    exact hbefore.concat (.number (isNumber_iff.mp ⟨_, hphase, hend⟩))
  | _ => cases hs

end reading

/-! ### What is written as tokens -/

/-- At the end of the text the tokens are these, last first. A number is none yet as long as it can go
on. -/
inductive State.Ends : State → List Token → Prop where
  | between (ts : List Token) : Ends ⟨ts, .between⟩ ts
  | number (ts : List Token) {p : Phase} (hp : p.mayEnd = true) (lexeme : List Char) :
      Ends ⟨ts, .number p lexeme⟩ (.scalar (.number lexeme.reverse) :: ts)

theorem finish_of_ends {s : State} {ts : List Token} (h : s.Ends ts) :
    finish s = some ts.reverse := by
  cases h with
  | between => rfl
  | number ts hp lexeme =>
    unfold finish
    dsimp only
    rw [if_pos hp]

theorem step_of_ends {s : State} {ts : List Token} (h : s.Ends ts) {c : Char}
    (hc : ∀ p : Phase, p.next? c = none) : step s c = between ts c := by
  cases h with
  | between => rfl
  | number ts hp lexeme =>
    unfold step
    dsimp only
    rw [hc, hp]
    rfl

theorem run_number {p q : Phase} {cs : List Char} (h : p.run cs = some q) (ts : List Token)
    (lexeme : List Char) :
    run ⟨ts, .number p lexeme⟩ cs = some ⟨ts, .number q (cs.reverse ++ lexeme)⟩ := by
  induction cs generalizing p lexeme with
  | nil =>
    cases h
    rfl
  | cons c cs ih =>
    unfold Phase.run at h
    rw [List.foldlM_cons] at h
    obtain ⟨p', hp', hrest⟩ := Option.bind_eq_some_iff.mp h
    have hstep : step ⟨ts, .number p lexeme⟩ c = some ⟨ts, .number p' (c :: lexeme)⟩ := by
      unfold step
      dsimp only
      rw [hp']
    rw [run_cons, hstep, Option.bind_some, ih hrest, List.reverse_cons, List.append_assoc]
    rfl

theorem between_digit {c : Char} {p : Phase} (h : Phase.sign.next? c = some p) (ts : List Token) :
    between ts c = some ⟨ts, .number p [c]⟩ := by
  unfold between
  split
  case h_16 =>
    rw [h]
    rfl
  all_goals cases h

/-- The lexeme of a number is read as that number, which may still go on. -/
theorem run_lexeme {lexeme : List Char} (h : IsNumber lexeme) (ts : List Token) :
    ∃ s, run ⟨ts, .between⟩ lexeme = some s ∧ s.Ends (.scalar (.number lexeme) :: ts) := by
  obtain ⟨p, hphase, hend⟩ := h
  have hends : State.Ends ⟨ts, .number p lexeme.reverse⟩ (.scalar (.number lexeme) :: ts) := by
    have h := State.Ends.number ts hend lexeme.reverse
    rw [List.reverse_reverse] at h
    exact h
  refine ⟨_, ?_, hends⟩
  unfold Phase.ofLexeme? at hphase
  split at hphase
  · next cs =>
    rw [run_cons, List.reverse_cons]
    exact run_number hphase ts ['-']
  · cases lexeme with
    | nil =>
      cases hphase
      cases hend
    | cons c cs =>
      unfold Phase.run at hphase
      rw [List.foldlM_cons] at hphase
      obtain ⟨q, hq, hrest⟩ := Option.bind_eq_some_iff.mp hphase
      have hstep : step ⟨ts, .between⟩ c = some ⟨ts, .number q [c]⟩ := between_digit hq ts
      rw [run_cons, hstep, List.reverse_cons]
      exact run_number hrest ts [c]

variable {ts : List Token}

theorem next?_eq_none {c : Char} (hdigit : c.isDigit = false)
    (hc : c ∉ ['.', 'e', 'E', '+', '-']) (p : Phase) : p.next? c = none := by
  have hzero : c ≠ '0' := by rintro rfl; cases hdigit
  simp only [List.mem_cons, List.not_mem_nil, or_false, not_or] at hc
  cases p <;> simp [Phase.next?, hdigit, hzero, hc]

theorem run_of_ends {s : State} (h : s.Ends ts) {c : Char} (hdigit : c.isDigit = false)
    (hc : c ∉ ['.', 'e', 'E', '+', '-']) (cs : List Char) :
    run s (c :: cs) = run ⟨ts, .between⟩ (c :: cs) := by
  rw [run_cons, run_cons, step_of_ends h (next?_eq_none hdigit hc)]
  rfl

theorem run_glyph {g : Glyph} {x : List Char} (h : g.Spelled x) (glyphs : Literal) :
    run ⟨ts, .text glyphs⟩ x = some ⟨ts, .text (g :: glyphs)⟩ := by
  cases h with
  | plain hquote hbackslash hcontrol =>
    rw [run_cons]
    unfold step
    dsimp only
    rw [if_neg hquote, if_neg hbackslash, if_neg (Nat.not_lt.mpr hcontrol)]
    rfl
  | @short letter c hc =>
    have hu : letter ≠ 'u' := by
      rintro rfl
      revert hc
      simp [shortEscapes]
    have hback : step ⟨ts, .text glyphs⟩ '\\' = some ⟨ts, .escape glyphs⟩ := rfl
    rw [run_cons, hback, Option.bind_some, run_cons]
    unfold step
    dsimp only
    rw [if_neg hu, escaped?_eq_some_iff.mpr hc]
    rfl
  | code ha hb hc hd =>
    have hback : step ⟨ts, .text glyphs⟩ '\\' = some ⟨ts, .escape glyphs⟩ := rfl
    have hcode : step ⟨ts, .escape glyphs⟩ 'u' = some ⟨ts, .code glyphs 4 0⟩ := rfl
    rw [run_cons, hback, Option.bind_some, run_cons, hcode, Option.bind_some]
    simp [run_cons, step, ha, hb, hc, hd]

theorem run_literal {l : Literal} {cs : List Char} (h : Literal.Spelled l cs) (glyphs : Literal) :
    run ⟨ts, .text glyphs⟩ cs = some ⟨ts, .text (l.reverse ++ glyphs)⟩ := by
  induction h generalizing glyphs with
  | nil => rfl
  | cons hg _ ih =>
    rw [run_append, run_glyph hg, Option.bind_some, ih, List.reverse_cons, List.append_assoc]
    rfl

/-- The state lets the token come next: only a number cannot follow a number that may go on. -/
def State.Lets (s : State) (t : Token) : Prop := s.mode = .between ∨ t.isNumber = false

theorem run_token {t : Token} {x : List Char} (ht : t.Spelled x) {s : State} (h : s.Ends ts)
    (hs : s.Lets t) : ∃ s', run s x = some s' ∧ s'.Ends (t :: ts) ∧
      (s'.mode = .between ∨ t.isNumber = true) := by
  cases ht with
  | number hnumeral =>
    obtain hmode | hnumber := hs
    · cases h with
      | between =>
        obtain ⟨s', hrun, hends⟩ := run_lexeme (isNumber_iff.mpr hnumeral) ts
        exact ⟨s', hrun, hends, Or.inr rfl⟩
      | number => cases hmode
    · cases hnumber
  | @text l cs hl =>
    have hopen : step ⟨ts, .between⟩ '"' = some ⟨ts, .text []⟩ := rfl
    refine ⟨_, ?_, .between _, Or.inl rfl⟩
    rw [run_of_ends h (by decide) (by decide), run_cons, hopen, Option.bind_some, run_append,
      run_literal hl, Option.bind_some, List.append_nil, run_cons]
    show some (State.mk (.text l.reverse.reverse :: ts) .between) = _
    rw [List.reverse_reverse]
  | _ =>
    rw [run_of_ends h (by decide) (by decide)]
    exact ⟨_, rfl, .between _, Or.inl rfl⟩

theorem run_spaces {w : List Char} (hw : Spaces w) {s : State} (h : s.Ends ts) :
    ∃ s', run s w = some s' ∧ s'.Ends ts ∧ ∀ t, s.Lets t → s'.Lets t := by
  induction w generalizing s with
  | nil => exact ⟨s, rfl, h, fun _ => id⟩
  | cons c w ih =>
    obtain ⟨hc, hw⟩ := List.forall_mem_cons.mp hw
    have hstep : step s c = some ⟨ts, .between⟩ := by
      simp only [IsSpace, List.mem_cons, List.not_mem_nil, or_false] at hc
      rcases hc with rfl | rfl | rfl | rfl <;>
        exact step_of_ends h (next?_eq_none (by decide) (by decide))
    obtain ⟨s', hrun, hends, hlets⟩ := ih hw (.between ts)
    refine ⟨s', ?_, hends, fun t _ => hlets t (Or.inl rfl)⟩
    rw [run_cons, hstep, Option.bind_some, hrun]

/-- **The lexer comes upon the tokens that are written**, whatever came before. -/
theorem run_spelled {us : List Token} {cs : List Char} (h : Spelled us cs) (hsep : Separate us)
    {s : State} (hends : s.Ends ts) (hs : ∀ t ∈ us.head?, s.Lets t) :
    ∃ s', run s cs = some s' ∧ s'.Ends (us.reverse ++ ts) := by
  induction h generalizing s ts with
  | nil hw =>
    obtain ⟨s', hrun, hends', -⟩ := run_spaces hw hends
    exact ⟨s', hrun, hends'⟩
  | cons hw ht _ ih =>
    obtain ⟨hfirst, hrest⟩ := List.isChain_cons.mp hsep
    obtain ⟨s₁, hrun₁, hends₁, hlets₁⟩ := run_spaces hw hends
    obtain ⟨s₂, hrun₂, hends₂, hmode⟩ := run_token ht hends₁ (hlets₁ _ (hs _ rfl))
    obtain ⟨s₃, hrun₃, hends₃⟩ := ih hrest hends₂ fun t' ht' => by
      refine hmode.imp id fun hnumber => (hfirst t' ht').resolve_left ?_
      rw [hnumber]
      exact nofun
    refine ⟨s₃, ?_, ?_⟩
    · rw [run_append, hrun₁, Option.bind_some, run_append, hrun₂, Option.bind_some, hrun₃]
    · rw [List.reverse_cons, List.append_assoc]
      exact hends₃

end Lexer

/-- **What is taken for tokens is written as tokens.** -/
theorem spelled_of_tokens? {cs : List Char} {ts : List Token} (h : tokens? cs = some ts) :
    Spelled ts cs := by
  obtain ⟨s, hs, hfinish⟩ := Option.bind_eq_some_iff.mp h
  exact (Lexer.State.Read.start.run hs).finish hfinish

/-- **What is written as tokens is taken for them.** -/
theorem tokens?_of_spelled {cs : List Char} {ts : List Token} (h : Spelled ts cs)
    (hsep : Separate ts) : tokens? cs = some ts := by
  obtain ⟨s, hrun, hends⟩ := Lexer.run_spelled h hsep (.between []) fun _ _ => Or.inl rfl
  unfold tokens? Lexer.State.start
  rw [hrun, Option.bind_some, Lexer.finish_of_ends hends, List.append_nil, List.reverse_reverse]

/-- **The texts that are read as a tree are the texts of the tree.** -/
theorem parse_eq_some_iff {cs : List Char} {j : Json} : parse cs = some j ↔ Written j cs := by
  constructor
  · intro h
    obtain ⟨ts, hts, hj⟩ := Option.bind_eq_some_iff.mp h
    have hspelled := spelled_of_tokens? hts
    rwa [(ofTokens?_eq_some_iff hspelled.proper).mp hj] at hspelled
  · intro h
    have hsep : Separate j.toTokens := Assembly.separate_of_run (Assembly.run_toTokens j [])
    unfold parse
    rw [tokens?_of_spelled h hsep, Option.bind_some, (ofTokens?_eq_some_iff h.proper).mpr rfl]

end Turnstile.Json
