import Mathlib.Data.Finset.Card
import Mathlib.Data.Finset.SDiff
import Mathlib.Data.Finset.Filter
import Mathlib.Logic.Relation
import Turnstile.Proofs.Redis.Stems
import Turnstile.Redis.Client

/-! # A server that is swept

The server is a machine of which nothing is known but what it promises. It holds keys, gives pages of
them and removes keys; what it answers may depend on all that happened before. `Server.answer` is what
goes over the wire for a request, `Server.answers` for requests one after another.

An iteration begins at the cursor zero, goes on at the cursor of each page, and is over when that is
zero; keys may be removed between its pages (`Server.Iteration`). What is promised about the keys that
a pattern picks is `Server.Serves`: pages may repeat keys or be empty and their cursors may be any,
but an iteration ends, it reports only keys that are picked, and it reports each one of them that is
still there at the end.

Servers that keep these promises are easily built: `shelves` keeps its keys on numbered shelves and
gives one shelf as a page (`serves_shelves`). -/

namespace Turnstile.Redis

open Turnstile.Text

/-- A server that answers nobody but its one client. -/
structure Server (σ : Type) where
  keys : σ → Finset String
  /-- The page at a cursor: the cursor of the next page, and the keys reported. -/
  scan : (cursor : UInt64) → (pattern : String) → (count : UInt64) → σ → (UInt64 × List String) × σ
  /-- Removes keys, and tells how many there were. -/
  remove : List String → σ → Int64 × σ

namespace Reply

/-- A page as it is sent. -/
def ofPage (page : UInt64 × List String) : Reply :=
  array [bulk (Utf8.encode (Sweep.argument page.1.toNat)),
    array (page.2.map fun key => bulk (Utf8.encode key))]

end Reply

namespace Server

variable {σ : Type} (srv : Server σ)

/-! ### On the wire -/

/-- What is answered to a request. -/
def answer : List String → σ → Outcome × σ
  | ["SCAN", cursor, "MATCH", pattern, "COUNT", count], s =>
    match Decimal.readUInt64 cursor.toList, Decimal.readUInt64 count.toList with
    | .ok c, .ok n =>
      if n = 0 then (.reply (.error "ERR syntax error"), s)
      else (.reply (.ofPage (srv.scan c pattern n s).1), (srv.scan c pattern n s).2)
    | _, _ => (.reply (.error "ERR invalid cursor"), s)
  | "DEL" :: key :: keys, s =>
    (.reply (.integer (srv.remove (key :: keys) s).1), (srv.remove (key :: keys) s).2)
  | _, s => (.reply (.error "ERR unknown command"), s)

/-- What is answered to requests in turn. -/
def answers : List (List String) → σ → List Outcome × σ
  | [], s => ([], s)
  | words :: requests, s =>
    let first := srv.answer words s
    let rest := answers requests first.2
    (first.1 :: rest.1, rest.2)

theorem readUInt64_argument (n : UInt64) :
    Decimal.readUInt64 (Sweep.argument n.toNat).toList = .ok n := by
  rw [Sweep.argument, String.toList_ofList, Decimal.readUInt64_digits]

theorem answer_scan (cursor : UInt64) (pattern : String) {count : UInt64} (hcount : count ≠ 0)
    (s : σ) :
    srv.answer ["SCAN", Sweep.argument cursor.toNat, "MATCH", pattern, "COUNT",
        Sweep.argument count.toNat] s =
      (.reply (.ofPage (srv.scan cursor pattern count s).1), (srv.scan cursor pattern count s).2) := by
  simp only [answer, readUInt64_argument, if_neg hcount]

theorem answer_del {keys : List String} (h : keys ≠ []) (s : σ) :
    srv.answer ("DEL" :: keys) s =
      (.reply (.integer (srv.remove keys s).1), (srv.remove keys s).2) := by
  cases keys with
  | nil => exact absurd rfl h
  | cons key keys => rfl

/-! ### Promises -/

/-- Keys are removed, and nothing else happens. -/
def Removals : σ → σ → Prop :=
  Relation.ReflTransGen fun s s' => ∃ keys, s' = (srv.remove keys s).2

/-- The iteration goes on behind a page, perhaps after removals: where it stands is a cursor and a
state. -/
def Follows (pattern : String) (count : UInt64) (x y : UInt64 × σ) : Prop :=
  (srv.scan x.1 pattern count x.2).1.1 ≠ 0 ∧ y.1 = (srv.scan x.1 pattern count x.2).1.1 ∧
    srv.Removals (srv.scan x.1 pattern count x.2).2 y.2

/-- An iteration from a cursor on, with all that it reports and the state behind its last page. -/
inductive Iteration (pattern : String) (count : UInt64) : UInt64 → σ → List String → σ → Prop where
  | last {cursor : UInt64} {s : σ} : (srv.scan cursor pattern count s).1.1 = 0 →
      Iteration pattern count cursor s (srv.scan cursor pattern count s).1.2
        (srv.scan cursor pattern count s).2
  | more {cursor next : UInt64} {s s' s'' : σ} {reported : List String} :
      srv.Follows pattern count (cursor, s) (next, s') →
      Iteration pattern count next s' reported s'' →
      Iteration pattern count cursor s ((srv.scan cursor pattern count s).1.2 ++ reported) s''

/-- **What a server promises** about removals, and about the keys that a pattern picks. -/
structure Serves (pattern : String) : Prop where
  /-- A page removes nothing. -/
  keys_scan : ∀ cursor count s, srv.keys (srv.scan cursor pattern count s).2 = srv.keys s
  /-- It reports only keys that the pattern picks. -/
  picks : ∀ cursor count s, ∀ key ∈ (srv.scan cursor pattern count s).1.2,
    Glob.picks pattern key = true
  /-- Each iteration comes to an end. -/
  ends : ∀ count s, Acc (fun y x => srv.Follows pattern count x y) (0, s)
  /-- Picked keys that are still there at its end were reported. -/
  complete : ∀ count s reported s', srv.Iteration pattern count 0 s reported s' →
    ∀ key ∈ srv.keys s', Glob.picks pattern key = true → key ∈ reported
  /-- A removal removes the keys that it names. -/
  keys_remove : ∀ keys s, srv.keys (srv.remove keys s).2 = srv.keys s \ keys.toFinset
  /-- It is answered with how many of them there were. -/
  removed : ∀ keys s, (srv.remove keys s).1.toInt = (srv.keys s ∩ keys.toFinset).card

section

variable {srv} {pattern : String} {count : UInt64}

theorem keys_of_removals (h : ∀ keys s, srv.keys (srv.remove keys s).2 ⊆ srv.keys s) {s s' : σ}
    (hs : srv.Removals s s') : srv.keys s' ⊆ srv.keys s := by
  induction hs with
  | refl => exact Finset.Subset.refl _
  | tail _ hlast ih =>
    obtain ⟨keys, rfl⟩ := hlast
    exact (h keys _).trans ih

theorem keys_of_follows (hscan : ∀ cursor s, srv.keys (srv.scan cursor pattern count s).2 = srv.keys s)
    (hremove : ∀ keys s, srv.keys (srv.remove keys s).2 ⊆ srv.keys s) {x y : UInt64 × σ}
    (h : srv.Follows pattern count x y) : srv.keys y.2 ⊆ srv.keys x.2 :=
  (keys_of_removals hremove h.2.2).trans (hscan x.1 x.2).subset

theorem keys_of_iteration
    (hscan : ∀ cursor s, srv.keys (srv.scan cursor pattern count s).2 = srv.keys s)
    (hremove : ∀ keys s, srv.keys (srv.remove keys s).2 ⊆ srv.keys s) {cursor : UInt64} {s s' : σ}
    {reported : List String} (h : srv.Iteration pattern count cursor s reported s') :
    srv.keys s' ⊆ srv.keys s := by
  induction h with
  | last _ => exact (hscan _ _).subset
  | more hfollows _ ih => exact ih.trans (keys_of_follows hscan hremove hfollows)

end

end Server

/-! ### Shelves -/

/-- Keys in a number that a reply can tell. -/
abbrev Stocked : Type := { keys : List String // keys.length < 0x8000000000000000 }

/-- A server with its keys on shelves. A page is one shelf, and its cursor the number of the next
shelf. -/
def shelves {n : Nat} (shelf : String → Fin n) : Server Stocked where
  keys s := s.1.toFinset
  scan cursor pattern _ s :=
    ((if cursor.toNat + 1 < n then cursor + 1 else 0,
      s.1.filter fun key => (shelf key).val = cursor.toNat ∧ Glob.picks pattern key = true), s)
  remove keys s :=
    (Int64.ofNat (s.1.toFinset ∩ keys.toFinset).card,
      ⟨s.1.filter fun key => key ∉ keys, (List.length_filter_le _ _).trans_lt s.2⟩)

section shelves

variable {n : Nat} {shelf : String → Fin n} {pattern : String} {count : UInt64}

theorem keys_remove_shelves (keys : List String) (s : Stocked) :
    (shelves shelf).keys ((shelves shelf).remove keys s).2 =
      (shelves shelf).keys s \ keys.toFinset := by
  ext key
  simp [shelves]

theorem toNat_next_shelves (hn : n ≤ UInt64.size) {cursor : UInt64} {s : Stocked}
    (h : ((shelves shelf).scan cursor pattern count s).1.1 ≠ 0) :
    ((shelves shelf).scan cursor pattern count s).1.1.toNat = cursor.toNat + 1 ∧
      cursor.toNat + 1 < n := by
  simp only [shelves] at h ⊢
  by_cases hlt : cursor.toNat + 1 < n
  · rw [if_pos hlt, UInt64.toNat_add, UInt64.toNat_one, Nat.mod_eq_of_lt (hlt.trans_le hn)]
    exact ⟨rfl, hlt⟩
  · exact absurd (if_neg hlt) h

theorem reported_shelves (hn : n ≤ UInt64.size) {cursor : UInt64} {s s' : Stocked}
    {reported : List String} (h : (shelves shelf).Iteration pattern count cursor s reported s')
    {key : String} (hkey : key ∈ (shelves shelf).keys s') (hpicks : Glob.picks pattern key = true)
    (hcursor : cursor.toNat ≤ (shelf key).val) : key ∈ reported := by
  have hremove : ∀ keys s, (shelves shelf).keys ((shelves shelf).remove keys s).2 ⊆
      (shelves shelf).keys s := fun keys s =>
    (keys_remove_shelves keys s).subset.trans Finset.sdiff_subset
  have hpage : ∀ (c : UInt64) (s : Stocked), key ∈ (shelves shelf).keys s →
      (shelf key).val = c.toNat → key ∈ ((shelves shelf).scan c pattern count s).1.2 := by
    intro c s hmem hshelf
    have hlist : key ∈ s.1 := List.mem_toFinset.mp hmem
    exact List.mem_filter.mpr ⟨hlist, by simp [hshelf, hpicks]⟩
  induction h with
  | @last c s hlast =>
    refine hpage c s hkey (Nat.le_antisymm ?_ hcursor)
    -- The last page has the last shelf.
    simp only [shelves] at hlast
    by_contra hne
    have hlt : c.toNat + 1 < n := Nat.lt_of_le_of_lt (by omega) (shelf key).isLt
    have hnext := congrArg UInt64.toNat hlast
    rw [if_pos hlt, UInt64.toNat_add, UInt64.toNat_one, Nat.mod_eq_of_lt (hlt.trans_le hn)] at hnext
    exact Nat.succ_ne_zero _ hnext
  | @more c next s s₁ s₂ reported hfollows hrest ih =>
    rcases Nat.eq_or_lt_of_le hcursor with heq | hlt
    · have hmem := Server.keys_of_follows (fun _ _ => rfl) hremove hfollows
        (Server.keys_of_iteration (fun _ _ => rfl) hremove hrest hkey)
      exact List.mem_append_left _ (hpage c s hmem heq.symm)
    · have hnext : next.toNat = c.toNat + 1 :=
        (congrArg UInt64.toNat hfollows.2.1).trans (toNat_next_shelves hn hfollows.1).1
      exact List.mem_append_right _ (ih hkey (by omega))

/-- **Shelves keep all promises.** -/
theorem serves_shelves (hn : n ≤ UInt64.size) (shelf : String → Fin n) (pattern : String) :
    (shelves shelf).Serves pattern where
  keys_scan _ _ _ := rfl
  picks cursor count s key hkey := by
    have := (List.mem_filter.mp hkey).2
    simp only [decide_eq_true_eq] at this
    exact this.2
  ends count s := by
    refine Subrelation.accessible ?_ ((measure fun x : UInt64 × Stocked => n - x.1.toNat).wf.apply _)
    intro y x hfollows
    obtain ⟨hnext, hlt⟩ := toNat_next_shelves hn hfollows.1
    have hy : y.1.toNat = x.1.toNat + 1 := (congrArg UInt64.toNat hfollows.2.1).trans hnext
    show n - y.1.toNat < n - x.1.toNat
    omega
  complete count s reported s' h key hkey hpicks :=
    reported_shelves hn h hkey hpicks (Nat.zero_le _)
  keys_remove := keys_remove_shelves
  removed keys s := by
    have hlt : (s.1.toFinset ∩ keys.toFinset).card < 0x8000000000000000 :=
      ((Finset.card_le_card Finset.inter_subset_left).trans (List.toFinset_card_le _)).trans_lt s.2
    exact Int64.toInt_ofNat_of_lt (hlt.trans_eq rfl)

end shelves

end Turnstile.Redis
