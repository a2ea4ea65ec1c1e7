/-!
# Common beginnings

A key begins with a stem if the stem's characters are its first ones.  Families of keys are removed
by their stem.
-/

namespace Turnstile.Text

/-- The key's first characters are the stem's. -/
def beginsWith (stem key : String) : Bool := stem.toList.isPrefixOf key.toList

theorem beginsWith_iff {stem key : String} :
    beginsWith stem key = true ↔ ∃ rest, key = stem ++ rest := by
  rw [beginsWith, List.isPrefixOf_iff_prefix]
  constructor
  · rintro ⟨rest, h⟩
    exact ⟨String.ofList rest, String.toList_inj.1 (by simp [h])⟩
  · rintro ⟨rest, rfl⟩
    exact ⟨rest.toList, by simp⟩

end Turnstile.Text
