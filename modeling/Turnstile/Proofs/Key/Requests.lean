import Mathlib.Data.List.Infix
import Mathlib.Data.List.TakeWhile
import Turnstile.Proofs.Http.Addresses
import Turnstile.Proofs.Key.Families
import Turnstile.RequestKey
import Turnstile.Web.Sender

/-! # What tells requests apart

The name of a lock joins an actor, a method, a resource and perhaps a fingerprint, and escapes
nothing. So the parts have to be found again by what they cannot hold.

A resource holds no `#` (`hash_not_mem_resource`), so the first one behind it begins the fingerprint:
between requests of one actor and one method the name tells all (`tail_inj`). The colons are a
weaker mark, since an actor may hold them. `overlap` is about two names that agree though they are
cut at different colons: the longer actor goes on with the shorter one's method, a colon, and the
first character of its resource. For resources that begin with a slash this means that a colon stands
before a slash in an actor, as it does in no address (`Separable`).

The keys that matter are the ones that are made from a request and then salted, where the last salt
that is not empty holds (`salted_make`). -/

namespace Turnstile

open Turnstile.Text

/-! ### Names that overlap -/

namespace Key

theorem overlap_left {m n r t w : List Char} {c : Char} (hm : ':' ∉ m) (hc : c ≠ ':') (hn : c ∉ n)
    (h : m ++ ':' :: c :: r = w ++ ':' :: (n ++ ':' :: t)) :
    ∃ u, w = m ++ ':' :: c :: u ∧ r = u ++ ':' :: (n ++ ':' :: t) := by
  have hfirst : c :: r ≠ n ++ ':' :: t := by
    intro h
    cases n with
    | nil => exact hc (List.cons.inj h).1
    | cons x n => exact hn (by simp [(List.cons.inj h).1])
  rcases List.append_eq_append_iff.mp h with ⟨v, rfl, hv⟩ | ⟨v, rfl, hv⟩
  · rcases v with - | ⟨x, - | ⟨y, u⟩⟩
    · exact absurd (List.cons.inj hv).2 hfirst
    · exact absurd (List.cons.inj (List.cons.inj hv).2).1 hc
    · obtain ⟨rfl, hrest⟩ := List.cons.inj hv
      obtain ⟨rfl, hr⟩ := List.cons.inj hrest
      exact ⟨u, rfl, hr⟩
  · rcases v with - | ⟨x, v⟩
    · exact absurd (List.cons.inj hv).2.symm hfirst
    · obtain ⟨rfl, -⟩ := List.cons.inj hv
      simp at hm

/-- **Where two names can overlap.** Names that agree have the same parts, or one of the actors goes
on with the other's method and the beginning of its resource. -/
theorem overlap {a b m n r s : List Char} {c d : Char} (hm : ':' ∉ m) (hn : ':' ∉ n)
    (hc : c ≠ ':') (hcn : c ∉ n) (hd : d ≠ ':') (hdm : d ∉ m)
    (h : a ++ ':' :: (m ++ ':' :: c :: r) = b ++ ':' :: (n ++ ':' :: d :: s)) :
    (a = b ∧ m = n ∧ c :: r = d :: s) ∨
      (∃ u, b = a ++ ':' :: (m ++ ':' :: c :: u) ∧ r = u ++ ':' :: (n ++ ':' :: d :: s)) ∨
      ∃ u, a = b ++ ':' :: (n ++ ':' :: d :: u) ∧ s = u ++ ':' :: (m ++ ':' :: c :: r) := by
  have hsame : m ++ ':' :: c :: r = n ++ ':' :: d :: s → m = n ∧ c :: r = d :: s := cut_inj hm hn
  rcases List.append_eq_append_iff.mp h with ⟨v, rfl, hv⟩ | ⟨v, rfl, hv⟩
  · cases v with
    | nil => exact Or.inl ⟨by simp, hsame (List.cons.inj hv).2⟩
    | cons x v =>
      obtain ⟨rfl, hrest⟩ := List.cons.inj hv
      obtain ⟨u, rfl, hr⟩ := overlap_left hm hc hcn hrest
      exact Or.inr (Or.inl ⟨u, rfl, hr⟩)
  · cases v with
    | nil => exact Or.inl ⟨by simp, hsame (List.cons.inj hv).2.symm⟩
    | cons x v =>
      obtain ⟨rfl, hrest⟩ := List.cons.inj hv
      obtain ⟨u, rfl, hs⟩ := overlap_left hn hd hdm hrest
      exact Or.inr (Or.inr ⟨u, rfl, hs⟩)

end Key

/-! ### Actors -/

namespace Http.Address

theorem slash_not_mem_text (a : Address) : '/' ∉ a.text.toList := fun h =>
  absurd (a.isMark_of_mem_text h) (by decide)

end Http.Address

namespace RequestKey

/-- A colon stands before a slash somewhere in the text. -/
def HasColonSlash (text : String) : Prop := [':', '/'] <:+: text.toList

instance (text : String) : Decidable (HasColonSlash text) := by
  unfold HasColonSlash; infer_instance

theorem not_hasColonSlash_address (a : Http.Address) : ¬ HasColonSlash a.text := fun h =>
  a.slash_not_mem_text (h.subset (by simp))

theorem not_hasColonSlash_anonymous : ¬ HasColonSlash Web.Sender.anonymous := by decide

/-! ### Resources -/

/-- The resource that a path names: what stands before the first mark of a query or fragment, without
the slashes at its end; the root if nothing is left. -/
def Names (path resource : List Char) : Prop :=
  ∃ stem slashes rest, path = stem ++ slashes ++ rest ∧
    (∀ c ∈ stem ++ slashes, c ≠ '?' ∧ c ≠ '#') ∧ (∀ c ∈ rest.head?, c = '?' ∨ c = '#') ∧
    (∀ c ∈ slashes, c = '/') ∧ stem.getLast? ≠ some '/' ∧
    resource = if stem = [] then ['/'] else stem

theorem names_resource (path : List Char) : Names path (resource path) := by
  obtain ⟨before, hbefore⟩ : ∃ before, path.takeWhile (!endsPath ·) = before := ⟨_, rfl⟩
  obtain ⟨stem, hstem⟩ : ∃ stem, (before.reverse.dropWhile (· = '/')).reverse = stem := ⟨_, rfl⟩
  have hcut : before = stem ++ (before.reverse.takeWhile (· = '/')).reverse := by
    rw [← hstem, ← List.reverse_append, List.takeWhile_append_dropWhile, List.reverse_reverse]
  refine ⟨stem, (before.reverse.takeWhile (· = '/')).reverse, path.dropWhile (!endsPath ·),
    ?_, ?_, ?_, ?_, ?_, ?_⟩
  · rw [← hcut, ← hbefore, List.takeWhile_append_dropWhile]
  · intro c hc
    rw [← hcut, ← hbefore] at hc
    simpa [endsPath] using List.mem_takeWhile_imp hc
  · intro c hc
    have hhead := List.head?_dropWhile_not (!endsPath ·) path
    rw [Option.mem_def.mp hc] at hhead
    simpa [endsPath, or_iff_not_imp_left] using hhead
  · intro c hc
    simpa using List.mem_takeWhile_imp (List.mem_reverse.mp hc)
  · have hhead := List.head?_dropWhile_not (· = '/') before.reverse
    rw [← hstem, List.getLast?_reverse]
    intro hlast
    rw [hlast] at hhead
    simp at hhead
  · unfold resource
    rw [hbefore, hstem]
    cases stem <;> simp

theorem hash_not_mem_resource (path : List Char) : '#' ∉ resource path := fun h =>
  absurd (endsPath_of_mem_resource h) (by decide)

/-! ### Salts -/

/-- What a key is salted with: the body of the request, or a fingerprint. -/
inductive Salt where
  | body (bytes : List UInt8)
  | fingerprint (text : String)
  deriving DecidableEq, Repr

/-- The key with one more salt. -/
def salt (k : RequestKey) : Salt → RequestKey
  | .body bytes => k.withBody bytes
  | .fingerprint text => k.withFingerprint text

/-- The key with some salts, one after another. -/
def salted (k : RequestKey) (salts : List Salt) : RequestKey := salts.foldl salt k

/-- The fingerprint that a salt stands for; an empty body stands for none. -/
def Salt.fingerprint? : Salt → Option String
  | .body bytes => if bytes = [] then none else some (Digest.Sha256.hexDigest bytes)
  | .fingerprint text => some text

/-- The fingerprint after some salts: the last one that any of them stands for. -/
def lastFingerprint? (salts : List Salt) : Option String :=
  (salts.filterMap Salt.fingerprint?).getLast?

theorem salt_eq (k : RequestKey) (s : Salt) :
    k.salt s = { k with fingerprint := s.fingerprint?.or k.fingerprint } := by
  cases s with
  | fingerprint text => rfl
  | body bytes =>
    cases bytes with
    | nil => simp [salt, withBody, Salt.fingerprint?]
    | cons b bs => simp [salt, withBody, withFingerprint, Salt.fingerprint?]

theorem salted_eq (k : RequestKey) (salts : List Salt) :
    k.salted salts = { k with fingerprint := (lastFingerprint? salts).or k.fingerprint } := by
  induction salts generalizing k with
  | nil => simp [salted, lastFingerprint?]
  | cons s salts ih =>
    have hstep : k.salted (s :: salts) = (k.salt s).salted salts := rfl
    rw [hstep, ih, salt_eq]
    unfold lastFingerprint?
    cases hs : s.fingerprint? with
    | none => simp [hs]
    | some f =>
      rw [List.filterMap_cons_some hs, List.getLast?_cons]
      cases (salts.filterMap Salt.fingerprint?).getLast? <;> simp

/-- **The last salt holds.** -/
theorem salted_make (actor method path : String) (salts : List Salt) :
    (make actor method path).salted salts =
      ⟨actor, String.ofList (upper method.toList), String.ofList (resource path.toList),
        lastFingerprint? salts⟩ := by
  rw [salted_eq]
  simp [make]

/-! ### Names of locks -/

/-- What a name ends with: the resource, and the fingerprint behind its mark. -/
def tail (k : RequestKey) : List Char :=
  k.path.toList ++ (k.fingerprint.elim [] fun f => '#' :: f.toList)

theorem toList_storeKey (k : RequestKey) :
    k.storeKey.toList = Key.requestLock.toList ++ ':' ::
      (k.actor.toList ++ ':' :: (k.method.toList ++ ':' :: k.tail)) := by
  unfold storeKey name tail
  cases k.fingerprint <;> simp

theorem storeKey_eq_iff {j k : RequestKey} :
    j.storeKey = k.storeKey ↔
      j.actor.toList ++ ':' :: (j.method.toList ++ ':' :: j.tail) =
        k.actor.toList ++ ':' :: (k.method.toList ++ ':' :: k.tail) := by
  rw [← String.toList_inj, toList_storeKey, toList_storeKey, List.append_cancel_left_eq,
    List.cons.injEq]
  simp

/-- **The first mark begins the fingerprint.** -/
theorem tail_inj {j k : RequestKey} (hj : '#' ∉ j.path.toList) (hk : '#' ∉ k.path.toList)
    (h : j.tail = k.tail) : j.path = k.path ∧ j.fingerprint = k.fingerprint := by
  unfold tail at h
  cases hfj : j.fingerprint with
  | none =>
    cases hfk : k.fingerprint with
    | none =>
      rw [hfj, hfk] at h
      exact ⟨String.toList_inj.mp (by simpa using h), rfl⟩
    | some g =>
      rw [hfj, hfk] at h
      refine absurd ?_ hj
      rw [← List.append_nil j.path.toList]
      exact h ▸ by simp
  | some f =>
    cases hfk : k.fingerprint with
    | none =>
      rw [hfj, hfk] at h
      refine absurd ?_ hk
      rw [← List.append_nil k.path.toList]
      exact h.symm ▸ by simp
    | some g =>
      rw [hfj, hfk] at h
      obtain ⟨hpath, hmark⟩ := Key.cut_inj hj hk h
      exact ⟨String.toList_inj.mp hpath, congrArg some (String.toList_inj.mp hmark)⟩

/-- The parts of the request can be told apart in the name of its lock. -/
structure Separable (k : RequestKey) : Prop where
  colon_not_mem_method : ':' ∉ k.method.toList
  slash_not_mem_method : '/' ∉ k.method.toList
  rooted : ∃ rest, k.path.toList = '/' :: rest
  not_hasColonSlash : ¬ HasColonSlash k.actor

theorem hasColonSlash_of_append {a m u : List Char} {text : String}
    (h : text.toList = a ++ ':' :: (m ++ ':' :: '/' :: u)) : HasColonSlash text :=
  ⟨a ++ ':' :: m, u, by rw [h]; simp⟩

theorem parts_of_storeKey {j k : RequestKey} (hj : j.Separable) (hk : k.Separable)
    (h : j.storeKey = k.storeKey) : j.actor = k.actor ∧ j.method = k.method ∧ j.tail = k.tail := by
  obtain ⟨p, hp⟩ := hj.rooted
  obtain ⟨q, hq⟩ := hk.rooted
  obtain ⟨r, hr⟩ : ∃ r, j.tail = '/' :: r := ⟨_, by rw [tail, hp, List.cons_append]⟩
  obtain ⟨s, hs⟩ : ∃ s, k.tail = '/' :: s := ⟨_, by rw [tail, hq, List.cons_append]⟩
  rw [storeKey_eq_iff, hr, hs] at h
  rcases Key.overlap hj.colon_not_mem_method hk.colon_not_mem_method (by decide)
    hk.slash_not_mem_method (by decide) hj.slash_not_mem_method h with
    ⟨hactor, hmethod, htail⟩ | ⟨u, hu, -⟩ | ⟨u, hu, -⟩
  · exact ⟨String.toList_inj.mp hactor, String.toList_inj.mp hmethod, by rw [hr, hs, htail]⟩
  · exact absurd (hasColonSlash_of_append hu) hk.not_hasColonSlash
  · exact absurd (hasColonSlash_of_append hu) hj.not_hasColonSlash

/-- **Locks belong to requests.** Two requests of one actor and one method have the same lock if and
only if their resources and their fingerprints are the same, whatever the texts are that they are
made from. Where the parts can be told apart, as for every actor that is an address or nobody, only
the same requests have the same lock. -/
theorem storeKey_identifies (actor₁ method₁ path₁ actor₂ method₂ path₂ : String)
    (salts₁ salts₂ : List Salt) :
    let j := (make actor₁ method₁ path₁).salted salts₁
    let k := (make actor₂ method₂ path₂).salted salts₂
    (j.actor = actor₁ ∧ j.method = String.ofList (method₁.toList.map Char.toUpper) ∧
      Names path₁.toList j.path.toList ∧ j.fingerprint = lastFingerprint? salts₁) ∧
    (j.actor = k.actor → j.method = k.method →
      (j.storeKey = k.storeKey ↔ j.path = k.path ∧ j.fingerprint = k.fingerprint)) ∧
    (j.Separable → k.Separable → (j.storeKey = k.storeKey ↔
      j.actor = k.actor ∧ j.method = k.method ∧ j.path = k.path ∧ j.fingerprint = k.fingerprint)) ∧
    (∀ a : Http.Address, ¬ HasColonSlash a.text) ∧ ¬ HasColonSlash Web.Sender.anonymous := by
  intro j k
  have hj : j = _ := salted_make actor₁ method₁ path₁ salts₁
  have hk : k = _ := salted_make actor₂ method₂ path₂ salts₂
  have hhashj : '#' ∉ j.path.toList := by
    rw [hj, String.toList_ofList]
    exact hash_not_mem_resource _
  have hhashk : '#' ∉ k.path.toList := by
    rw [hk, String.toList_ofList]
    exact hash_not_mem_resource _
  have hsame : j.actor = k.actor → j.method = k.method → j.path = k.path →
      j.fingerprint = k.fingerprint → j.storeKey = k.storeKey := by
    intro hactor hmethod hpath hprint
    rw [storeKey_eq_iff, tail, tail, hactor, hmethod, hpath, hprint]
  refine ⟨?_, fun hactor hmethod => ⟨fun h => ?_, fun h => hsame hactor hmethod h.1 h.2⟩,
    fun hsj hsk => ⟨fun h => ?_, fun h => hsame h.1 h.2.1 h.2.2.1 h.2.2.2⟩,
    not_hasColonSlash_address, not_hasColonSlash_anonymous⟩
  · rw [hj]
    refine ⟨rfl, rfl, ?_, rfl⟩
    rw [String.toList_ofList]
    exact names_resource path₁.toList
  · rw [storeKey_eq_iff, hactor, hmethod] at h
    simp only [List.append_cancel_left_eq, List.cons.injEq, true_and] at h
    exact tail_inj hhashj hhashk h
  · obtain ⟨hactor, hmethod, htail⟩ := parts_of_storeKey hsj hsk h
    exact ⟨hactor, hmethod, tail_inj hhashj hhashk htail⟩

/-- A cart that is changed from an address with colons in it, the same change in other words, and a
change whose path imitates the fingerprint. -/
theorem storeKey_identifies_cart :
    let j := (make "fe80::1" "patch" "/carts/7").salted [.body [0x7b, 0x7d], .fingerprint "0a"]
    let k := (make "fe80::1" "Patch" "/carts/7//?page=2").salted [.fingerprint "0a", .body []]
    let i := (make "fe80::1" "PATCH" "/carts/7#0a").salted []
    (j.Separable ∧ k.Separable ∧ j.storeKey = k.storeKey) ∧
      (i.actor = j.actor ∧ i.method = j.method ∧ i.storeKey ≠ j.storeKey) := by
  intro j k i
  have hj : j = ⟨"fe80::1", "PATCH", "/carts/7", some "0a"⟩ := by decide +kernel
  have hk : k = ⟨"fe80::1", "PATCH", "/carts/7", some "0a"⟩ := by decide +kernel
  have hi : i = ⟨"fe80::1", "PATCH", "/carts/7", none⟩ := by decide +kernel
  have hparts : Separable ⟨"fe80::1", "PATCH", "/carts/7", some "0a"⟩ :=
    ⟨by decide, by decide, ⟨"carts/7".toList, by decide⟩, by decide +kernel⟩
  have hsj : j.Separable := by rw [hj]; exact hparts
  have hsk : k.Separable := by rw [hk]; exact hparts
  have hjk := (storeKey_identifies "fe80::1" "patch" "/carts/7" "fe80::1" "Patch" "/carts/7//?page=2"
    [.body [0x7b, 0x7d], .fingerprint "0a"] [.fingerprint "0a", .body []]).2.2.1 hsj hsk
  have hij := (storeKey_identifies "fe80::1" "PATCH" "/carts/7#0a" "fe80::1" "patch" "/carts/7"
    [] [.body [0x7b, 0x7d], .fingerprint "0a"]).2.1 (by decide) (by decide)
  have hsame : j.actor = k.actor ∧ j.method = k.method ∧ j.path = k.path ∧
      j.fingerprint = k.fingerprint := by
    rw [hj, hk]
    exact ⟨rfl, rfl, rfl, rfl⟩
  have hprint : i.fingerprint ≠ j.fingerprint := by
    rw [hi, hj]
    decide
  exact ⟨⟨hsj, hsk, hjk.mpr hsame⟩, by rw [hi, hj], by rw [hi, hj], fun h => hprint (hij.mp h).2⟩

end RequestKey

end Turnstile
