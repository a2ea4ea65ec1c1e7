import Mathlib
import Turnstile.Proofs.Key.Requests

/-! # One form for each request line

Many request lines mean one request. Behind the first `?` or `#` of a path anything may stand, slashes
at the end of what stands before it do not count, and neither does the case of the method's letters.

Paths that differ in nothing else name one resource, and all others name different ones: two paths
lose the difference between them only if it is made up of slashes (`resource_eq_iff`). A resource
has nothing left to lose (`resource_resource`), so a key is made again from its own parts. All of this
is put together in `canonical`. -/

namespace Turnstile.RequestKey

/-! ### Slashes at the end -/

/-- A path without the slashes at its end. -/
def unslashed (path : List Char) : List Char := path.rdropWhile (· = '/')

theorem unslashed_append_slashes (path : List Char) (n : Nat) :
    unslashed (path ++ List.replicate n '/') = unslashed path := by
  induction n with
  | zero => rw [List.replicate_zero, List.append_nil]
  | succ n ih =>
    rw [List.replicate_succ', ← List.append_assoc, unslashed,
      List.rdropWhile_concat_pos (· = '/') _ '/' rfl]
    exact ih

theorem exists_eq_unslashed_append (path : List Char) :
    ∃ n, path = unslashed path ++ List.replicate n '/' := by
  have hslashes : path.rtakeWhile (· = '/') =
      List.replicate (path.rtakeWhile (· = '/')).length '/' :=
    List.eq_replicate_of_mem fun c hc => by simpa using List.mem_rtakeWhile_imp hc
  refine ⟨(path.rtakeWhile (· = '/')).length, ?_⟩
  rw [← hslashes]
  exact List.rdropWhile_append_rtakeWhile.symm

theorem getLast?_unslashed (path : List Char) : (unslashed path).getLast? ≠ some '/' := by
  intro h
  have hne : unslashed path ≠ [] := by
    intro hnil
    rw [hnil] at h
    cases h
  rw [List.getLast?_eq_getLast_of_ne_nil hne, Option.some.injEq] at h
  exact List.rdropWhile_last_not _ _ hne (decide_eq_true h)

theorem unslashed_of_getLast? {path : List Char} (h : path.getLast? ≠ some '/') :
    unslashed path = path := by
  refine List.rdropWhile_eq_self_iff.mpr fun hne hlast => h ?_
  rw [List.getLast?_eq_getLast_of_ne_nil hne, of_decide_eq_true hlast]

/-- **The same but for slashes.** Paths with the same beginning can be made equal by slashes behind
them, and others cannot. -/
theorem unslashed_eq_iff {p q : List Char} : unslashed p = unslashed q ↔
    ∃ m n, p ++ List.replicate m '/' = q ++ List.replicate n '/' := by
  constructor
  · intro h
    obtain ⟨m, hp⟩ := exists_eq_unslashed_append p
    obtain ⟨n, hq⟩ := exists_eq_unslashed_append q
    refine ⟨n, m, ?_⟩
    calc p ++ List.replicate n '/'
        = unslashed p ++ (List.replicate m '/' ++ List.replicate n '/') := by
          rw [← List.append_assoc, ← hp]
      _ = unslashed q ++ (List.replicate n '/' ++ List.replicate m '/') := by
          rw [h, List.replicate_append_replicate, List.replicate_append_replicate, Nat.add_comm]
      _ = q ++ List.replicate m '/' := by rw [← List.append_assoc, ← hq]
  · rintro ⟨m, n, h⟩
    rw [← unslashed_append_slashes p m, h, unslashed_append_slashes]

/-! ### Marks of a query or fragment -/

/-- The part of a path before its first `?` or `#`. -/
def beforeMark (path : List Char) : List Char := path.takeWhile fun c => c ≠ '?' ∧ c ≠ '#'

theorem beforeMark_eq (path : List Char) : beforeMark path = path.takeWhile (!endsPath ·) := by
  unfold beforeMark endsPath
  congr 1
  funext c
  simp

theorem beforeMark_append {path rest : List Char} (hpath : '?' ∉ path ∧ '#' ∉ path)
    (hrest : rest = [] ∨ ∃ c more, rest = c :: more ∧ (c = '?' ∨ c = '#')) :
    beforeMark (path ++ rest) = path := by
  have hplain : ∀ c ∈ path, decide (c ≠ '?' ∧ c ≠ '#') = true := by
    intro c hc
    exact decide_eq_true ⟨fun h => hpath.1 (h ▸ hc), fun h => hpath.2 (h ▸ hc)⟩
  rw [beforeMark, List.takeWhile_append_of_pos hplain]
  rcases hrest with rfl | ⟨c, more, rfl, rfl | rfl⟩ <;> simp

/-! ### Resources -/

theorem resource_eq (path : List Char) : resource path =
    if unslashed (beforeMark path) = [] then ['/'] else unslashed (beforeMark path) := by
  unfold resource
  rw [← beforeMark_eq]
  split
  · next hnil => exact (if_pos hnil).symm
  · next hne => exact (if_neg hne).symm

theorem names_iff {path named : List Char} : Names path named ↔ named = resource path := by
  constructor
  · rintro ⟨stem, slashes, rest, rfl, hplain, hrest, hslashes, hlast, rfl⟩
    have hbefore : beforeMark (stem ++ slashes ++ rest) = stem ++ slashes := by
      refine beforeMark_append ⟨fun h => (hplain _ h).1 rfl, fun h => (hplain _ h).2 rfl⟩ ?_
      cases rest with
      | nil => exact Or.inl rfl
      | cons c more => exact Or.inr ⟨c, more, rfl, hrest c rfl⟩
    have hstem : unslashed (stem ++ slashes) = stem := by
      rw [List.eq_replicate_of_mem hslashes, unslashed_append_slashes, unslashed_of_getLast? hlast]
    rw [resource_eq, hbefore, hstem]
  · rintro rfl
    exact names_resource path

/-- **When two paths name one resource**: up to the first `?` or `#` they are the same but for slashes
at the end. -/
theorem resource_eq_iff {p q : List Char} : resource p = resource q ↔
    ∃ m n, beforeMark p ++ List.replicate m '/' = beforeMark q ++ List.replicate n '/' := by
  rw [← unslashed_eq_iff, resource_eq, resource_eq]
  -- Without its slashes no path is the root, so the root stands for nothing else.
  have hroot : ∀ r : List Char, unslashed r ≠ ['/'] := fun r h =>
    getLast?_unslashed r (by rw [h]; rfl)
  split
  · next hp =>
    split
    · next hq => simp [hp, hq]
    · next hq => exact iff_of_false (hroot _).symm fun h => hq (h ▸ hp)
  · next hp =>
    split
    · next hq => exact iff_of_false (hroot _) fun h => hp (h ▸ hq)
    · exact Iff.rfl

theorem getLast?_resource {path : List Char} (h : (resource path).getLast? = some '/') :
    resource path = ['/'] := by
  rw [resource_eq] at h ⊢
  split at h
  · next hnil => rw [if_pos hnil]
  · exact absurd h (getLast?_unslashed _)

theorem not_mem_resource (path : List Char) : '?' ∉ resource path ∧ '#' ∉ resource path := by
  have hmark : ∀ c, endsPath c = true → c ∉ resource path := fun c hc hmem => by
    rw [endsPath_of_mem_resource hmem] at hc
    cases hc
  exact ⟨hmark '?' (by decide), hmark '#' (by decide)⟩

theorem resource_resource (path : List Char) : resource (resource path) = resource path := by
  have hbefore : beforeMark (resource path) = resource path := by
    have h := beforeMark_append (not_mem_resource path) (Or.inl rfl)
    rwa [List.append_nil] at h
  by_cases hlast : (resource path).getLast? = some '/'
  · rw [getLast?_resource hlast]
    decide
  · rw [resource_eq (resource path), hbefore, unslashed_of_getLast? hlast,
      if_neg (resource_ne_nil path)]

/-! ### Methods -/

/-- The same letters, each in either case. -/
def Recased (method other : List Char) : Prop :=
  List.Forall₂ (fun c d => d = c ∨ d = c.toUpper ∨ d = c.toLower) method other

theorem upper_of_recased {method other : List Char} (h : Recased method other) :
    upper other = upper method := by
  unfold upper
  induction h with
  | nil => rfl
  | cons hcd _ ih =>
    rw [List.map_cons, List.map_cons, ih]
    rcases hcd with rfl | rfl | rfl <;> simp

theorem upper_upper (method : List Char) : upper (upper method) = upper method := by
  unfold upper
  rw [List.map_map]
  exact List.map_congr_left fun c _ => Char.toUpper_toUpper_eq_toUpper c

/-! ### Keys -/

/-- The key made once more from what can be read off it. -/
def remade (k : RequestKey) : RequestKey :=
  match k.fingerprint with
  | none => make k.actor k.method k.path
  | some fingerprint => (make k.actor k.method k.path).withFingerprint fingerprint

/-- **Request lines have one canonical form.** The path of a key holds no mark of a query or fragment
and no slash at its end, unless it is the root. The key stays the same whatever is appended that does
not count and in whatever case the method is written, and it is lost by any other change of the path.
And it is the key of its own parts. -/
theorem canonical (actor method path : String) (salts : List Salt) :
    let k := (make actor method path).salted salts
    ('?' ∉ k.path.toList ∧ '#' ∉ k.path.toList ∧ k.path ≠ "" ∧
      (k.path.toList.getLast? = some '/' → k.path = "/")) ∧
    (∀ (method' : String) (n : Nat) (rest : List Char), Recased method.toList method'.toList →
      '?' ∉ path.toList ∧ '#' ∉ path.toList →
      (rest = [] ∨ ∃ c more, rest = c :: more ∧ (c = '?' ∨ c = '#')) →
      (make actor method' (path ++ String.ofList (List.replicate n '/' ++ rest))).salted salts = k) ∧
    (∀ path' : String, (make actor method path').salted salts = k ↔
      ∃ m n, beforeMark path'.toList ++ List.replicate m '/' =
        beforeMark path.toList ++ List.replicate n '/') ∧
    k.remade = k := by
  intro k
  have hk : k = _ := salted_make actor method path salts
  have hpath : k.path.toList = resource path.toList := by rw [hk, String.toList_ofList]
  refine ⟨⟨?_, ?_, ?_, ?_⟩, ?_, ?_, ?_⟩
  · rw [hpath]
    exact (not_mem_resource _).1
  · rw [hpath]
    exact (not_mem_resource _).2
  · intro hempty
    rw [hempty] at hpath
    exact resource_ne_nil _ hpath.symm
  · intro hlast
    rw [hpath] at hlast
    rw [← String.toList_inj, hpath, getLast?_resource hlast]
    rfl
  · intro method' n rest hmethod hplain hrest
    have hslashes : '?' ∉ path.toList ++ List.replicate n '/' ∧
        '#' ∉ path.toList ++ List.replicate n '/' := by
      simp [hplain, List.mem_replicate]
    have hbefore : beforeMark path.toList = path.toList := by
      have h := beforeMark_append hplain (Or.inl rfl)
      rwa [List.append_nil] at h
    have hresource : resource (path.toList ++ (List.replicate n '/' ++ rest)) =
        resource path.toList := by
      rw [resource_eq_iff, ← List.append_assoc, beforeMark_append hslashes hrest, hbefore]
      exact ⟨0, n, by rw [List.replicate_zero, List.append_nil]⟩
    rw [hk, salted_make, String.toList_append, String.toList_ofList, hresource,
      upper_of_recased hmethod]
  · intro path'
    rw [hk, salted_make, ← resource_eq_iff]
    simp [String.ofList_inj]
  · have hmethod : k.method.toList = upper method.toList := by rw [hk, String.toList_ofList]
    have hmake : make k.actor k.method k.path = { k with fingerprint := none } := by
      rw [make, hmethod, hpath, upper_upper, resource_resource, hk]
    unfold remade
    rw [hmake]
    split
    · next hprint => rw [← hprint]
    · next fingerprint hprint =>
      unfold withFingerprint
      rw [← hprint]

/-- A path with slashes and a query, sent in lower case, with a body. -/
theorem canonical_order :
    let k := (make "7" "POST" "/api/orders").salted [.body [0x31]]
    (Recased "POST".toList "poSt".toList ∧ '?' ∉ "/api/orders".toList ∧ '#' ∉ "/api/orders".toList) ∧
      k.path.toList.getLast? ≠ some '/' ∧
      (make "7" "poSt" "/api/orders//?page=1#/").salted [.body [0x31]] = k ∧
      (make "7" "POST" "//api/orders").salted [.body [0x31]] ≠ k := by
  intro k
  obtain ⟨⟨-, -, -, hroot⟩, hsame, hother, -⟩ := canonical "7" "POST" "/api/orders" [.body [0x31]]
  have hmethod : Recased "POST".toList "poSt".toList := by simp [Recased]
  refine ⟨⟨hmethod, by decide, by decide⟩, ?_, ?_, ?_⟩
  · intro hlast
    exact absurd (hroot hlast) (by decide)
  · exact hsame "poSt" 2 "?page=1#/".toList hmethod (by decide) (Or.inr ⟨_, _, rfl, Or.inl rfl⟩)
  · intro h
    obtain ⟨m, n, hslashes⟩ := (hother _).mp h
    exact absurd (List.cons.inj (List.cons.inj hslashes).2).1 (by decide)

end Turnstile.RequestKey
