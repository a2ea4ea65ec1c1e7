import Mathlib.Data.Finset.Card
import Mathlib.Data.Finset.Dedup
import Mathlib.Data.Finset.Filter
import Turnstile.Proofs.Store.Expiry

/-! # Removal by a stem, in memory

A removal by a stem takes away every entry whose key begins with the stem, those that are over
included. What it answers counts only the keys whose entries still count (`answer_deleteByPrefix`),
and of those it leaves the ones that do not begin with the stem (`keys_deleteByPrefix`). -/

namespace Turnstile.Store.Memory

open Turnstile.Time Turnstile.Text

theorem toFinset_keys (now : Instant) (m : Entries) :
    (keys now m).toFinset = ((m.liveList now).map Prod.fst).toFinset :=
  List.toFinset_eq_of_perm _ _ ((List.mergeSort_perm _ _).map Prod.fst)

theorem answer_deleteByPrefix (now : Instant) (stem : String) (m : Entries) :
    (step now (.deleteByPrefix stem) m).1 =
      .ok ((keys now m).toFinset.filter fun key => beginsWith stem key = true).card := by
  have hnodup : ((m.liveList now).map Prod.fst).Nodup :=
    (List.Sublist.map Prod.fst List.filter_sublist).nodup m.nodup
  rw [toFinset_keys, ← List.toFinset_filter, List.toFinset_card_of_nodup (hnodup.filter _),
    ← List.countP_eq_length_filter, List.countP_map]
  simp [step, Entries.countWith, Function.comp_def]

theorem keys_deleteByPrefix (now : Instant) (stem : String) (m : Entries) :
    (keys now (step now (.deleteByPrefix stem) m).2).toFinset =
      (keys now m).toFinset.filter fun key => ¬ beginsWith stem key = true := by
  have hlist : (m.eraseWhere (beginsWith stem)).liveList now =
      (m.liveList now).filter fun p => !beginsWith stem p.1 := by
    rw [← Entries.toList_settle, ← Entries.settle_eraseWhere, Entries.toList_eraseWhere,
      Entries.toList_settle]
  simp only [step]
  rw [toFinset_keys, toFinset_keys, hlist]
  ext key
  simp

end Turnstile.Store.Memory
