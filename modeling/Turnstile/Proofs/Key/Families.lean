import Turnstile.Key

/-! # Families of keys

Every key is a namespace, a colon, and a name. A namespace has no colon in it, so the first colon of
a key ends its namespace: two keys agree only if their namespaces and their names do
(`namespaced_inj`), and a stem in one namespace begins no key of another
(`beginsWith_namespaced`). Ids are written in digits, which are no colons either; so the name of a
curation's page falls into its parts in the same way (`CurationPage.name_inj`). -/

namespace Turnstile.Key

open Turnstile.Text

/-! ### Cutting at a separator -/

/-- **The first separator decides.** If one text that is cut at `c` begins another one, then the
parts before the cut are equal. -/
theorem cut_prefix {c : Char} : ∀ {a b s t : List Char}, c ∉ a → c ∉ b →
    a ++ c :: s <+: b ++ c :: t → a = b ∧ s <+: t
  | [], [], s, t, _, _, h => ⟨rfl, (List.cons_prefix_cons.mp h).2⟩
  | [], y :: b, s, t, _, hb, h => by
    obtain ⟨rfl, -⟩ := List.cons_prefix_cons.mp h
    exact absurd List.mem_cons_self hb
  | x :: a, [], s, t, ha, _, h => by
    obtain ⟨rfl, -⟩ := List.cons_prefix_cons.mp h
    exact absurd List.mem_cons_self ha
  | x :: a, y :: b, s, t, ha, hb, h => by
    obtain ⟨rfl, h'⟩ := List.cons_prefix_cons.mp h
    obtain ⟨rfl, hst⟩ := cut_prefix (List.not_mem_of_not_mem_cons ha)
      (List.not_mem_of_not_mem_cons hb) h'
    exact ⟨rfl, hst⟩

theorem cut_inj {c : Char} {a b s t : List Char} (ha : c ∉ a) (hb : c ∉ b)
    (h : a ++ c :: s = b ++ c :: t) : a = b ∧ s = t := by
  obtain ⟨rfl, -⟩ := cut_prefix ha hb ⟨[], by rw [List.append_nil, h]⟩
  exact ⟨rfl, (List.cons.inj (List.append_cancel_left h)).2⟩

/-! ### Namespaces -/

/-- A text that can be the namespace of a family: no colon is in it. -/
def IsSpace (s : String) : Prop := ':' ∉ s.toList

instance (s : String) : Decidable (IsSpace s) := by
  unfold IsSpace; infer_instance

theorem isSpace_product : IsSpace product := by decide

theorem isSpace_curation : IsSpace curation := by decide

theorem isSpace_member : IsSpace member := by decide

theorem isSpace_requestLock : IsSpace requestLock := by decide

theorem namespaced_inj {a b x y : String} (ha : IsSpace a) (hb : IsSpace b)
    (h : namespaced a x = namespaced b y) : a = b ∧ x = y := by
  have hlist := congrArg String.toList h
  rw [toList_namespaced, toList_namespaced] at hlist
  obtain ⟨hspace, hname⟩ := cut_inj ha hb hlist
  exact ⟨String.toList_inj.mp hspace, String.toList_inj.mp hname⟩

/-- **A stem only begins keys of its own namespace**, and of those the ones whose names it begins. -/
theorem beginsWith_namespaced {a b stem name : String} (ha : IsSpace a) (hb : IsSpace b) :
    beginsWith (namespaced a stem) (namespaced b name) = true ↔
      a = b ∧ beginsWith stem name = true := by
  simp only [beginsWith, List.isPrefixOf_iff_prefix, toList_namespaced]
  constructor
  · intro h
    obtain ⟨hspace, hname⟩ := cut_prefix ha hb h
    exact ⟨String.toList_inj.mp hspace, hname⟩
  · rintro ⟨rfl, rest, hrest⟩
    exact ⟨rest, by rw [← hrest]; simp⟩

/-! ### Ids -/

theorem colon_not_mem_digits (n : Nat) : ':' ∉ Decimal.digits n := fun h =>
  absurd (Decimal.isDigit_of_mem_digits h) (by decide)

theorem digits_inj {m n : Nat} (h : Decimal.digits m = Decimal.digits n) : m = n := by
  have hread : Decimal.readBelow (max m n + 1) (Decimal.digits m) = .ok m :=
    Decimal.readBelow_digits (by omega)
  rw [h, Decimal.readBelow_digits (by omega)] at hread
  exact (Except.ok.inj hread).symm

theorem ofId_inj {m n : UInt64} (h : ofId m = ofId n) : m = n := by
  have hlist := congrArg String.toList h
  rw [toList_ofId, toList_ofId] at hlist
  exact UInt64.toNat_inj.mp (digits_inj hlist)

/-! ### Views and tokens -/

theorem toList_viewsName (id : UInt64) :
    (viewsName id).toList = Decimal.digits id.toNat ++ ':' :: "views".toList := by
  have hviews : ":views".toList = ':' :: "views".toList := by decide
  rw [viewsName, String.toList_append, toList_ofId, hviews]

theorem toList_refreshTokenName (member : UInt64) : (refreshTokenName member).toList =
    Decimal.digits member.toNat ++ ':' :: "token:refresh".toList := by
  have htoken : ":token:refresh".toList = ':' :: "token:refresh".toList := by decide
  rw [refreshTokenName, String.toList_append, toList_ofId, htoken]

theorem id_of_cut {m n : UInt64} {s t : List Char}
    (h : Decimal.digits m.toNat ++ ':' :: s = Decimal.digits n.toNat ++ ':' :: t) : m = n :=
  UInt64.toNat_inj.mp
    (digits_inj (cut_inj (colon_not_mem_digits _) (colon_not_mem_digits _) h).1)

theorem viewsName_inj {p q : UInt64} (h : viewsName p = viewsName q) : p = q := by
  have hlist := congrArg String.toList h
  rw [toList_viewsName, toList_viewsName] at hlist
  exact id_of_cut hlist

theorem refreshTokenName_inj {m n : UInt64} (h : refreshTokenName m = refreshTokenName n) :
    m = n := by
  have hlist := congrArg String.toList h
  rw [toList_refreshTokenName, toList_refreshTokenName] at hlist
  exact id_of_cut hlist

theorem productName_ne_viewsName (p q : UInt64) : productName p ≠ viewsName q := by
  intro h
  have hcolon : ':' ∈ (viewsName q).toList := by
    rw [toList_viewsName]
    exact List.mem_append_right _ List.mem_cons_self
  rw [← h, productName, toList_ofId] at hcolon
  exact colon_not_mem_digits _ hcolon

/-! ### Pages of curations -/

namespace CurationPage

/-- The cursor of a page as it stands in its name. -/
def cursorText (cursor : Option UInt64) : List Char := (cursor.elim "null" ofId).toList

theorem colon_not_mem_cursorText (cursor : Option UInt64) : ':' ∉ cursorText cursor := by
  cases cursor with
  | none => decide
  | some c =>
    simp only [cursorText, Option.elim, toList_ofId]
    exact colon_not_mem_digits _

/-- No id is written `null`. -/
theorem cursorText_inj {c d : Option UInt64} (h : cursorText c = cursorText d) : c = d := by
  have hnull : ∀ e : UInt64, cursorText none ≠ cursorText (some e) := by
    intro e he
    simp only [cursorText, Option.elim, toList_ofId] at he
    have hmem : 'n' ∈ Decimal.digits e.toNat := by rw [← he]; decide
    exact absurd (Decimal.isDigit_of_mem_digits hmem) (by decide)
  cases c with
  | none =>
    cases d with
    | none => rfl
    | some e => exact absurd h (hnull e)
  | some b =>
    cases d with
    | none => exact absurd h.symm (hnull b)
    | some e => exact congrArg some (ofId_inj (String.toList_inj.mp h))

theorem toList_name (k : CurationPage) :
    k.name.toList = Decimal.digits k.curation.toNat ++ ':' :: ("product:cursor".toList ++ ':' ::
      (cursorText k.cursor ++ ':' :: ("size".toList ++ ':' :: Decimal.digits k.size.toNat))) := by
  have hcursor : ":product:cursor:".toList = ':' :: ("product:cursor".toList ++ [':']) := by decide
  have hsize : ":size:".toList = ':' :: ("size".toList ++ [':']) := by decide
  simp only [name, cursorText, String.toList_append, toList_ofId, hcursor, hsize,
    List.append_assoc, List.cons_append, List.nil_append]

theorem name_inj {j k : CurationPage} (h : j.name = k.name) : j = k := by
  have hlist := congrArg String.toList h
  rw [toList_name, toList_name] at hlist
  obtain ⟨hcuration, hrest⟩ := cut_inj (colon_not_mem_digits _) (colon_not_mem_digits _) hlist
  have hrest := (List.cons.inj (List.append_cancel_left hrest)).2
  obtain ⟨hcursor, hrest⟩ := cut_inj (colon_not_mem_cursorText _) (colon_not_mem_cursorText _) hrest
  have hsize := (List.cons.inj (List.append_cancel_left hrest)).2
  have h₁ : j.curation = k.curation := UInt64.toNat_inj.mp (digits_inj hcuration)
  have h₂ : j.cursor = k.cursor := cursorText_inj hcursor
  have h₃ : j.size = k.size := UInt64.toNat_inj.mp (digits_inj hsize)
  cases j
  cases k
  simp_all

end CurationPage

end Turnstile.Key
