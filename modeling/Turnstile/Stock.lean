import Turnstile.Json.Record

/-!
# Stocks

How many of a product there are for each pair of its variants.  A stock is listed in the order of the
pairs, whatever the order in which the counts came in, and of several counts for one pair the last one
holds.

JSON has no pairs as keys, so only the empty stock can be written.
-/

namespace Turnstile

open Turnstile.Json

/-- Two variants of a product. -/
abbrev Variants := UInt8 × UInt8

/-- The place of a pair among all pairs: by its first variant, then by its second. -/
def Variants.rank (v : Variants) : Nat := 256 * v.1.toNat + v.2.toNat

/-- Counts for distinct pairs of variants, in the order of the pairs. -/
structure Stock where
  toList : List (Variants × UInt8)
  sorted : toList.Pairwise fun p q => p.1.rank < q.1.rank
  deriving DecidableEq, Repr

theorem Variants.rank_inj {v w : Variants} : v.rank = w.rank ↔ v = w := by
  refine ⟨fun h => ?_, fun h => h ▸ rfl⟩
  have hv := v.2.toNat_lt
  have hw := w.2.toNat_lt
  unfold rank at h
  exact Prod.ext (UInt8.toNat_inj.1 (by omega)) (UInt8.toNat_inj.1 (by omega))

namespace Stock

/-- Nothing at all. -/
def empty : Stock := ⟨[], .nil⟩

/-- The list with a count at the place of its pair, in place of the one that stood there. -/
def insert (v : Variants) (n : UInt8) : List (Variants × UInt8) → List (Variants × UInt8)
  | [] => [(v, n)]
  | p :: ps =>
    if v.rank < p.1.rank then (v, n) :: p :: ps
    else if v = p.1 then (v, n) :: ps
    else p :: insert v n ps

theorem eq_or_mem_of_mem_insert {v : Variants} {n : UInt8} {ps : List (Variants × UInt8)}
    {p : Variants × UInt8} (h : p ∈ insert v n ps) : p = (v, n) ∨ p ∈ ps := by
  induction ps with
  | nil => exact .inl (by simpa [insert] using h)
  | cons q qs ih =>
    rw [insert] at h
    split at h
    · exact List.mem_cons.1 h
    · split at h
      · rcases List.mem_cons.1 h with rfl | h
        · exact .inl rfl
        · exact .inr (List.mem_cons_of_mem q h)
      · rcases List.mem_cons.1 h with rfl | h
        · exact .inr List.mem_cons_self
        · exact (ih h).imp_right (List.mem_cons_of_mem q)

theorem sorted_insert (v : Variants) (n : UInt8) {ps : List (Variants × UInt8)}
    (h : ps.Pairwise fun p q => p.1.rank < q.1.rank) :
    (insert v n ps).Pairwise fun p q => p.1.rank < q.1.rank := by
  induction ps with
  | nil => exact List.pairwise_singleton _ _
  | cons p ps ih =>
    obtain ⟨hp, hps⟩ := List.pairwise_cons.1 h
    rw [insert]
    split
    · next hlt =>
      refine List.pairwise_cons.2 ⟨fun q hq => ?_, h⟩
      rcases List.mem_cons.1 hq with rfl | hq
      · exact hlt
      · exact Nat.lt_trans hlt (hp q hq)
    · next hge =>
      split
      · next heq =>
        subst heq
        exact List.pairwise_cons.2 ⟨hp, hps⟩
      · next hne =>
        refine List.pairwise_cons.2 ⟨fun q hq => ?_, ih hps⟩
        rcases eq_or_mem_of_mem_insert hq with rfl | hq
        · have hrank : v.rank ≠ p.1.rank := fun he => hne (Variants.rank_inj.1 he)
          show p.1.rank < v.rank
          omega
        · exact hp q hq

/-- The stock with a count for a pair of variants replaced. -/
def put (s : Stock) (v : Variants) (n : UInt8) : Stock :=
  ⟨insert v n s.toList, sorted_insert v n s.sorted⟩

/-- The stock of counts that come in one after another. -/
def ofList (counts : List (Variants × UInt8)) : Stock :=
  counts.foldl (fun s p => s.put p.1 p.2) empty

end Stock

/-! ## Written form -/

instance : ToJson Stock where
  toJson? s := if s.toList.isEmpty then some (record []) else none

instance : OfJson Stock where
  ofJson?
    | .object [] => some .empty
    | _ => none

end Turnstile
