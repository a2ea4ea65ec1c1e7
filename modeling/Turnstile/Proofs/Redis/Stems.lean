import Turnstile.Proofs.Text.Utf8
import Turnstile.Redis.Glob
import Turnstile.Text.Stem

/-! # Patterns of stems

The pattern of a stem picks the keys that begin with it and no others, whatever characters the stem
holds (`picks_ofStem`): each one that would mean something else is escaped, so the pattern consists of
the stem's characters and a run behind them (`items_escape`).

A server compares bytes where the pattern holds characters. For these patterns that makes no
difference, since no character's bytes begin another's (`picks_ofStem_iff_encode`). -/

namespace Turnstile.Redis.Glob

open Turnstile.Text

theorem items_escaped (c : Char) (cs : List Char) :
    items ((if isSpecial c then ['\\', c] else [c]) ++ cs) = .exactly c :: items cs := by
  by_cases hc : isSpecial c = true
  · rw [if_pos hc, List.cons_append, List.cons_append, List.nil_append, items]
  · rw [if_neg hc, List.cons_append, List.nil_append]
    simp only [isSpecial, Bool.or_eq_true, decide_eq_true_eq, not_or] at hc
    obtain ⟨⟨⟨⟨hrun, hany⟩, hopen⟩, -⟩, hbackslash⟩ := hc
    rw [items.eq_def]
    split <;> simp_all

theorem items_escape (cs rest : List Char) :
    items (escape cs ++ rest) = cs.map Item.exactly ++ items rest := by
  induction cs with
  | nil => rfl
  | cons c cs ih =>
    rw [escape, List.flatMap_cons, List.append_assoc, items_escaped]
    exact congrArg _ ih

theorem itemsMatch_run (cs : List Char) : itemsMatch [.run] cs = true := by
  induction cs with
  | nil => simp [itemsMatch]
  | cons c cs ih => rw [itemsMatch, ih, Bool.or_true]

theorem itemsMatch_exactly_run (stem cs : List Char) :
    itemsMatch (stem.map Item.exactly ++ [.run]) cs = true ↔ stem <+: cs := by
  induction stem generalizing cs with
  | nil => simp [itemsMatch_run]
  | cons d stem ih =>
    rw [List.map_cons, List.cons_append]
    cases cs with
    | nil =>
      rw [itemsMatch]
      · simp
      · simp
    | cons c cs =>
      rw [itemsMatch, Bool.and_eq_true, ih, List.cons_prefix_cons, Item.isMetBy, decide_eq_true_iff,
        eq_comm]
      simp

theorem picks_ofStem (stem key : String) :
    picks (ofStem stem) key = true ↔ beginsWith stem key = true := by
  have hrun : items ['*'] = [.run] := by simp [items]
  rw [picks, ofStem, String.toList_ofList, items_escape, hrun, itemsMatch_exactly_run, beginsWith,
    List.isPrefixOf_iff_prefix]

theorem picks_ofStem_iff_encode (stem key : String) :
    picks (ofStem stem) key = true ↔ Utf8.encode stem <+: Utf8.encode key := by
  rw [picks_ofStem, beginsWith, List.isPrefixOf_iff_prefix, Utf8.encode_eq, Utf8.encode_eq]
  constructor
  · rintro ⟨rest, hrest⟩
    exact ⟨rest.flatMap String.utf8EncodeChar, by rw [← hrest, List.flatMap_append]⟩
  · rintro ⟨rest, hrest⟩
    refine List.isPrefix_of_utf8Encode_append_eq_utf8Encode rest.toByteArray ?_
    rw [List.utf8Encode, List.utf8Encode, ← List.toByteArray_append, hrest]

example : picks (ofStem "a*[b]?\\") "a*[b]?\\c" = true ∧ picks (ofStem "a*[b]?\\") "axb" = false := by
  constructor
  · decide +kernel
  · decide +kernel

end Turnstile.Redis.Glob
