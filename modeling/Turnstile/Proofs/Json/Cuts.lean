import Turnstile.Proofs.Json.Reread

/-! # Texts that go on

The text of a number may go on, and is then another number. Any other tree is closed: if its text goes
on and is still a text, then only white space was added (`parse_append_eq_some_iff`). For the lexer
does not look back, so that what comes behind is read by itself (`tokens?_append`), and a tree that is
whole takes no more tokens. -/

namespace Turnstile.Json

namespace Lexer

/-! ### The lexer does not look back -/

/-- The state with earlier tokens under its own. -/
def State.over (s : State) (ts : List Token) : State := ⟨s.tokens ++ ts, s.mode⟩

theorem between_over (us ts : List Token) (c : Char) :
    between (us ++ ts) c = (between us c).map (·.over ts) := by
  unfold between
  split
  case h_16 =>
    rw [Option.map_map]
    rfl
  all_goals rfl

theorem step_over (s : State) (ts : List Token) (c : Char) :
    step (s.over ts) c = (step s c).map (·.over ts) := by
  obtain ⟨us, mode⟩ := s
  unfold step State.over
  cases mode with
  | between => exact between_over us ts c
  | word rest value =>
    cases rest with
    | nil => rfl
    | cons x rest =>
      dsimp only
      split_ifs <;> rfl
  | number phase lexeme =>
    dsimp only
    split
    · rfl
    · split_ifs
      · exact between_over (.scalar (.number lexeme.reverse) :: us) ts c
      · rfl
  | text glyphs =>
    dsimp only
    split_ifs <;> rfl
  | escape glyphs =>
    dsimp only
    split_ifs
    · rfl
    · rw [Option.map_map]
      rfl
  | code glyphs owed value =>
    dsimp only
    rw [Option.map_map]
    congr 1
    funext d
    dsimp only [Function.comp]
    split_ifs <;> rfl

theorem run_over (s : State) (ts : List Token) (cs : List Char) :
    run (s.over ts) cs = (run s cs).map (·.over ts) := by
  induction cs generalizing s with
  | nil => rfl
  | cons c cs ih =>
    rw [run_cons, run_cons, step_over]
    cases step s c with
    | none => rfl
    | some t => exact ih t

theorem finish_over (s : State) (ts : List Token) :
    finish (s.over ts) = (finish s).map (ts.reverse ++ ·) := by
  obtain ⟨us, mode⟩ := s
  unfold finish State.over
  cases mode with
  | between =>
    dsimp only
    rw [List.reverse_append]
    rfl
  | number phase lexeme =>
    dsimp only
    split_ifs
    · rw [← List.cons_append, List.reverse_append]
      rfl
    · rfl
  | _ => rfl

end Lexer

theorem tokens?_append {cs : List Char} {ts : List Token}
    (h : Lexer.run .start cs = some ⟨ts, .between⟩) (ds : List Char) :
    tokens? (cs ++ ds) = (tokens? ds).map (ts.reverse ++ ·) := by
  have hover : Lexer.State.mk ts .between = Lexer.State.start.over ts := rfl
  unfold tokens?
  rw [Lexer.run_append, h, Option.bind_some, hover, Lexer.run_over]
  cases Lexer.run .start ds with
  | none => rfl
  | some s => exact Lexer.finish_over s ts

/-! ### Trees are closed -/

theorem eq_number_of_toTokens {j : Json} {ts : List Token} {lexeme : List Char}
    (h : j.toTokens = ts ++ [.scalar (.number lexeme)]) : j = .number lexeme := by
  have hlast := congrArg List.getLast? h
  rw [List.getLast?_concat] at hlast
  cases j with
  | number l =>
    cases hlast
    rfl
  | array items =>
    unfold toTokens at hlast
    rw [← List.cons_append, List.getLast?_concat] at hlast
    cases hlast
  | object fields =>
    unfold toTokens at hlast
    rw [← List.cons_append, List.getLast?_concat] at hlast
    cases hlast
  | _ => cases hlast

theorem run_of_parse {cs : List Char} {j : Json} (h : parse cs = some j)
    (hj : ∀ lexeme, j ≠ .number lexeme) :
    Lexer.run .start cs = some ⟨j.toTokens.reverse, .between⟩ := by
  obtain ⟨ts, hts, htree⟩ := Option.bind_eq_some_iff.mp h
  obtain rfl := (ofTokens?_eq_some_iff (spelled_of_tokens? hts).proper).mp htree
  obtain ⟨s, hrun, hfinish⟩ := Option.bind_eq_some_iff.mp hts
  obtain ⟨us, mode⟩ := s
  cases mode with
  | between =>
    rw [hrun, ← Option.some.inj hfinish, List.reverse_reverse]
  | number phase lexeme =>
    unfold Lexer.finish at hfinish
    dsimp only at hfinish
    split_ifs at hfinish
    have hlast := (Option.some.inj hfinish).symm
    rw [List.reverse_cons] at hlast
    exact absurd (eq_number_of_toTokens hlast) (hj _)
  | _ => cases hfinish

/-- **Nothing may follow a tree but white space.** -/
theorem parse_append_eq_some_iff {cs ds : List Char} {j k : Json} (h : parse cs = some j)
    (hj : ∀ lexeme, j ≠ .number lexeme) : parse (cs ++ ds) = some k ↔ Spaces ds ∧ k = j := by
  constructor
  · intro hk
    obtain ⟨ts, hts, htree⟩ := Option.bind_eq_some_iff.mp hk
    rw [tokens?_append (run_of_parse h hj), List.reverse_reverse] at hts
    obtain ⟨us, hus, rfl⟩ := Option.map_eq_some_iff.mp hts
    obtain ⟨s, hs, hfinish⟩ := Option.bind_eq_some_iff.mp htree
    rw [Assembly.run_append, Assembly.State.start, Assembly.run_toTokens, Option.bind_some] at hs
    cases us with
    | cons t us => cases hs
    | nil =>
      cases hs
      cases spelled_of_tokens? hus with
      | nil hspaces => exact ⟨hspaces, (Option.some.inj hfinish).symm⟩
  · rintro ⟨hspaces, rfl⟩
    exact parse_eq_some_iff.mpr ((parse_eq_some_iff.mp h).append_spaces hspaces)

/-- The text of a tree ends with no white space, unless perhaps it is a number. -/
theorem not_isSpace_of_render {j : Json} (hj : ∀ lexeme, j ≠ .number lexeme) {cs : List Char}
    {c : Char} (h : j.render = cs ++ [c]) : ¬ IsSpace c := by
  have hlast := congrArg List.getLast? h
  rw [List.getLast?_concat] at hlast
  cases j with
  | null =>
    cases hlast
    decide
  | bool b =>
    cases b
    all_goals
      cases hlast
      decide
  | number lexeme => exact absurd rfl (hj lexeme)
  | text l =>
    unfold render Literal.render at hlast
    rw [List.getLast?_concat] at hlast
    cases hlast
    decide
  | array items =>
    unfold render at hlast
    rw [List.getLast?_concat] at hlast
    cases hlast
    decide
  | object fields =>
    unfold render at hlast
    rw [List.getLast?_concat] at hlast
    cases hlast
    decide

/-- **No part of a text is a text**, unless one of the two is a number's. -/
theorem eq_nil_of_parse_of_render {j k : Json} {cs ds : List Char} (hj : j.Sound)
    (hnumber : ∀ lexeme, j ≠ .number lexeme) (h : j.render = cs ++ ds) (hk : parse cs = some k)
    (hknumber : ∀ lexeme, k ≠ .number lexeme) : ds = [] := by
  obtain rfl | ⟨before, c, rfl⟩ := List.eq_nil_or_concat ds
  · rfl
  · have hparse := parse_render hj
    rw [h] at hparse
    obtain ⟨hspaces, -⟩ := (parse_append_eq_some_iff hk hknumber).mp hparse
    rw [List.concat_eq_append] at h hspaces
    rw [← List.append_assoc] at h
    have hc : IsSpace c := hspaces c (List.mem_append_right _ (List.mem_singleton_self c))
    exact absurd hc (not_isSpace_of_render hnumber h)

end Turnstile.Json
