import Turnstile.Proofs.Cache.Bench
import Turnstile.Proofs.Shop.Run
import Turnstile.Proofs.Shop.Spaces

/-! # Only the current token is good

What a member holds is known from the history alone: the token that was last saved for them, and
when, unless it was revoked since (`Shop.held`); what the store fails to carry out makes no
difference. The entry under the member's key says exactly that (`find?_after_eq_held`), as nothing
else in the shop writes the key (`Operation.eq_of_writes_token`).

So a token is good if it is the one that the member holds and its lifetime is not over (`IsGood`);
every older one is not, and what other members do can be left out of the history (`held_concerning`).
`tokens_current` says so of all that members can ask. -/

namespace Turnstile

open Turnstile.Store Turnstile.Time Turnstile.Text

/-! ### One member's entry -/

namespace RefreshTokens

/-- The store key of a member's token. -/
def key (member : UInt64) : String := Key.namespaced Key.member (Key.refreshTokenName member)

/-- A token and the reading at which it was saved, as it is kept. -/
def entry (lifetime : Span) (token : String × Instant) : Entry :=
  ⟨token.1, some (token.2.after lifetime)⟩

/-- The token is the one that is held, and its lifetime is not over. -/
def IsGood (lifetime : Span) (now : Instant) (held : Option (String × Instant)) (token : String) :
    Prop :=
  ∃ t : Instant, held = some (token, t) ∧
    now.nanos < min (t.nanos + lifetime.nanos) Instant.last.nanos

variable {σ : Type} {lifetime : Span} {member : UInt64} {held : Option (String × Instant)}
  {b : Bench Entries} {token : String}

theorem live?_eq_some_iff (h : b.store.find? (key member) = held.map (entry lifetime)) :
    (b.store.live? b.now (key member)).map Entry.value = some token ↔
      IsGood lifetime b.now held token := by
  have hlive : ∀ t : Instant, (entry lifetime (token, t)).isLive b.now = true ↔
      b.now.nanos < min (t.nanos + lifetime.nanos) Instant.last.nanos := by
    intro t
    rw [← Instant.nanos_after, ← Instant.lt_iff]
    exact Entry.isLive_of_expiry rfl
  constructor
  · intro hsome
    obtain ⟨e, he, rfl⟩ := Option.map_eq_some_iff.mp hsome
    obtain ⟨hfind, hcounts⟩ := Entries.live?_eq_some_iff.mp he
    obtain ⟨⟨token, t⟩, rfl, rfl⟩ := Option.map_eq_some_iff.mp (h.symm.trans hfind)
    exact ⟨t, rfl, (hlive t).mp hcounts⟩
  · rintro ⟨t, rfl, hnow⟩
    rw [Entries.live?_eq_some_iff.mpr ⟨h, (hlive t).mpr hnow⟩]
    rfl

theorem run_find (lifetime : Span) (member : UInt64) (b : Bench Entries) :
    (b.run Memory.backend ((make lifetime).find member)).1 =
      if b.failing .get = none then (b.store.live? b.now (key member)).map Entry.value else none := by
  refine (Cache.run_get (Cache.memberTokens lifetime) member b).1.trans ?_
  unfold Cache.found?
  cases b.failing .get with
  | some failure => rfl
  | none =>
    show (b.store.live? b.now (key member)).bind (fun e => some e.value) = _
    rw [if_pos rfl, Option.map_eq_bind]
    rfl

theorem run_isCurrent {store : Backend σ} (tokens : RefreshTokens) (member : UInt64)
    (presented : String) (b : Bench σ) :
    b.run store (tokens.isCurrent member presented) =
      (decide ((b.run store (tokens.find member)).1 = some presented),
        (b.run store (tokens.find member)).2) := by
  rw [isCurrent, Bench.run_bind]
  rfl

theorem find_eq_some_iff (token : String)
    (h : b.store.find? (key member) = held.map (entry lifetime)) :
    (b.run Memory.backend ((make lifetime).find member)).1 = some token ↔
      b.failing .get = none ∧ IsGood lifetime b.now held token := by
  rw [run_find, ← live?_eq_some_iff h]
  by_cases hready : b.failing .get = none
  · rw [if_pos hready]
    exact ⟨fun hfound => ⟨hready, hfound⟩, And.right⟩
  · rw [if_neg hready]
    exact ⟨nofun, fun hboth => absurd hboth.1 hready⟩

theorem isCurrent_iff (token : String)
    (h : b.store.find? (key member) = held.map (entry lifetime)) :
    (b.run Memory.backend ((make lifetime).isCurrent member token)).1 = true ↔
      b.failing .get = none ∧ IsGood lifetime b.now held token := by
  rw [run_isCurrent, decide_eq_true_iff]
  exact find_eq_some_iff token h

theorem revoke_iff (h : b.store.find? (key member) = held.map (entry lifetime)) :
    (b.run Memory.backend ((make lifetime).revoke member)).1 = true ↔
      b.failing .delete = none ∧ ∃ token, IsGood lifetime b.now held token := by
  have hanswer : (b.run Memory.backend ((make lifetime).revoke member)).1 =
      (decide (b.failing .delete = none) && (b.store.live? b.now (key member)).isSome) :=
    Cache.answer_delete (Cache.memberTokens lifetime) member b
  rw [hanswer, Bool.and_eq_true, decide_eq_true_iff]
  refine and_congr_right fun _ => ?_
  rw [← Option.isSome_map (f := Entry.value), Option.isSome_iff_exists]
  exact exists_congr fun token => live?_eq_some_iff h

end RefreshTokens

namespace Shop

open RefreshTokens

variable {β σ : Type}

/-! ### What a member holds -/

/-- What an operation makes of the token that the member holds. A save or a revocation that the store
does not carry out makes nothing of it. -/
def Moment.grant (member : UInt64) (x : Moment σ β) (held : Option (String × Instant)) :
    Option (String × Instant) :=
  match x.operation with
  | .saveToken m token =>
    if m = member ∧ x.bench.failing .set = none then some (token, x.bench.now) else held
  | .revokeToken m => if m = member ∧ x.bench.failing .delete = none then none else held
  | _ => held

/-- The token that was last saved for the member, and when, unless it was revoked since. -/
def held (member : UInt64) (xs : List (Moment σ β)) : Option (String × Instant) :=
  xs.foldl (fun held x => x.grant member held) none

theorem held_append (member : UInt64) (xs ys : List (Moment σ β)) :
    held member (xs ++ ys) = ys.foldl (fun held x => x.grant member held) (held member xs) :=
  List.foldl_append

/-! ### Who writes a member's key -/

variable {t : Lifetimes} {notes : String} {member : UInt64} {o : Operation β}

/-- Neither notes nor direct uses of the cache of tokens get at a member's token. -/
structure Operation.SparesTokens (notes : String) (o : Operation β) : Prop where
  notes : ∀ o', o = .noted o' → Key.IsSpace notes ∧ notes ≠ Key.member
  cache : ∀ o', o ≠ .memberToken o'

theorem Operation.eq_of_writes_token (hspares : o.SparesTokens notes)
    (h : o.Writes (Shop.make t notes) (RefreshTokens.key member)) :
    (∃ token, o = .saveToken member token) ∨ o = .revokeToken member := by
  have hspace : o.space notes = Key.member :=
    space_of_writes (isSpace_space fun o' ho => (hspares.notes o' ho).1) Key.isSpace_member h
  obtain ⟨x, hx, hw⟩ := h
  have hkey : ∀ m, RefreshTokens.key m = RefreshTokens.key member → m = member := fun m hm =>
    Key.refreshTokenName_inj (Key.namespaced_inj Key.isSpace_member Key.isSpace_member hm).2
  cases o with
  | saveToken m token =>
    obtain ⟨text, t, rfl⟩ := hx
    exact Or.inl ⟨token, by rw [hkey m (Command.writes_set.mp hw)]⟩
  | findToken m =>
    cases hx
    exact absurd hw Command.not_writes_get
  | checkToken m presented =>
    cases hx
    exact absurd hw Command.not_writes_get
  | revokeToken m =>
    cases hx
    exact Or.inr (by rw [hkey m (Command.writes_delete.mp hw)])
  | memberToken o => exact absurd rfl (hspares.cache o)
  | noted o => exact absurd hspace (hspares.notes o rfl).2
  | _ => exact absurd hspace (by simp only [Operation.space]; decide)

theorem Moment.grant_of_not_writes {s : Shop} {b : Bench σ}
    (hs : s.tokens = RefreshTokens.make t.token)
    (h : ¬ o.Writes s (RefreshTokens.key member)) (held : Option (String × Instant)) :
    (⟨b, o⟩ : Moment σ β).grant member held = held := by
  cases o with
  | saveToken m token =>
    refine if_neg fun hm => h ⟨_, ⟨token, t.token, rfl⟩, Command.writes_set.mpr ?_⟩
    rw [hs, ← hm.1]
    rfl
  | revokeToken m =>
    refine if_neg fun hm => h ⟨_, rfl, Command.writes_delete.mpr ?_⟩
    rw [hs, ← hm.1]
    rfl
  | _ => rfl

/-! ### Whole runs -/

/-- **One operation** keeps the entry in step with what is held. -/
theorem Operation.find?_run_eq_grant {b : Bench Entries} {held : Option (String × Instant)}
    (hspares : o.SparesTokens notes)
    (h : b.store.find? (RefreshTokens.key member) = held.map (entry t.token)) :
    (b.run Memory.backend (o.program (Shop.make t notes))).2.store.find?
        (RefreshTokens.key member) =
      ((⟨b, o⟩ : Moment Entries β).grant member held).map (entry t.token) := by
  by_cases hw : o.Writes (Shop.make t notes) (RefreshTokens.key member)
  · obtain ⟨token, rfl⟩ | rfl := eq_of_writes_token hspares hw
    · have hstore := (Cache.run_set (Cache.memberTokens t.token) member b token none).2
      simp only [Operation.program, Moment.grant, true_and]
      refine (congrArg (Entries.find? · (RefreshTokens.key member)) hstore).trans ?_
      cases hf : b.failing .set with
      | some failure => exact h
      | none =>
        rw [if_pos rfl]
        exact (Entries.find?_put ..).trans (if_pos rfl)
    · have hfind := Cache.find?_delete (Cache.memberTokens t.token) member b
        (RefreshTokens.key member)
      simp only [Operation.program, Moment.grant, true_and]
      refine hfind.trans ?_
      by_cases hready : b.failing .delete = none
      · rw [if_pos hready, if_pos ⟨hready, rfl⟩]
        rfl
      · rw [if_neg hready, if_neg fun hboth => hready hboth.1]
        exact h
  · rw [find?_run hw, Moment.grant_of_not_writes (t := t) rfl hw]
    exact h

/-- **A whole run** keeps it so. -/
theorem find?_after_eq_held (t : Lifetimes) {notes : String} (start : Instant) (member : UInt64)
    (steps : List (Step β)) (hspares : ∀ o, .operate o ∈ steps → o.SparesTokens notes) :
    ((Shop.make t notes).after Memory.backend steps (freshBench start)).store.find?
        (RefreshTokens.key member) =
      (held member ((Shop.make t notes).moments Memory.backend steps (freshBench start))).map
        (entry t.token) := by
  refine moments_after_induction (P := fun xs (b : Bench Entries) =>
    b.store.find? (RefreshTokens.key member) = (held member xs).map (entry t.token))
    rfl (fun _ _ _ h => h) (fun _ _ _ _ h => h) ?_
  intro xs b o ho hbefore
  rw [held_append]
  exact Operation.find?_run_eq_grant (hspares o ho) hbefore

/-! ### Other members -/

/-- The step is not about the token of another member. -/
def Step.concerns (member : UInt64) : Step β → Bool
  | operate (.saveToken m _) | operate (.findToken m) | operate (.checkToken m _)
  | operate (.revokeToken m) => m = member
  | _ => true

theorem Moment.grant_congr {b b' : Bench σ} (hnow : b'.now = b.now)
    (hfailing : b'.failing = b.failing) (held : Option (String × Instant)) :
    (⟨b', o⟩ : Moment σ β).grant member held = (⟨b, o⟩ : Moment σ β).grant member held := by
  unfold grant
  rw [hnow, hfailing]

theorem Moment.grant_of_not_concerns {b : Bench σ} {held : Option (String × Instant)}
    (h : (Step.operate o).concerns member = false) :
    (⟨b, o⟩ : Moment σ β).grant member held = held := by
  cases o with
  | saveToken m token => exact if_neg fun hm => of_decide_eq_false h hm.1
  | revokeToken m => exact if_neg fun hm => of_decide_eq_false h hm.1
  | _ => rfl

/-- **What other members do leaves no trace** in what a member holds: with their steps left out, the
clock, the failures and the member's token are the same. -/
theorem held_concerning (s : Shop) (store : Backend σ) (member : UInt64) (steps : List (Step β))
    (b : Bench σ) :
    let mine := steps.filter (Step.concerns member)
    (s.after store mine b).now = (s.after store steps b).now ∧
      (s.after store mine b).failing = (s.after store steps b).failing ∧
      held member (s.moments store mine b) = held member (s.moments store steps b) := by
  induction steps using List.reverseRecOn with
  | nil => exact ⟨rfl, rfl, rfl⟩
  | append_singleton steps x ih =>
    obtain ⟨hnow, hfailing, hheld⟩ := ih
    dsimp only
    rw [List.filter_append, after_concat, moments_concat, held_append]
    cases hx : x.concerns member with
    | true =>
      rw [List.filter_cons_of_pos hx, List.filter_nil, after_concat, moments_concat, held_append,
        hheld]
      cases x with
      | advance d => exact ⟨congrArg (Instant.after · d) hnow, hfailing, rfl⟩
      | order kind failure =>
        refine ⟨hnow, ?_, rfl⟩
        simp only [Step.after, Bench.order, hfailing]
      | operate o =>
        refine ⟨?_, ?_, Moment.grant_congr hnow hfailing _⟩
        · simp only [Step.after, Bench.now_run, hnow]
        · simp only [Step.after, Bench.failing_run, hfailing]
    | false =>
      rw [List.filter_cons_of_neg (by rw [hx]; exact Bool.false_ne_true), List.filter_nil,
        List.append_nil, hheld]
      cases x with
      | advance d => cases hx
      | order kind failure => cases hx
      | operate o =>
        refine ⟨?_, ?_, (Moment.grant_of_not_concerns hx).symm⟩
        · simp only [Step.after, Bench.now_run, hnow]
        · simp only [Step.after, Bench.failing_run, hfailing]

/-! ### What members are answered -/

/-- What a member is answered after the steps of a run that begins on the bench `b₀`. -/
structure OnlyCurrent (s : Shop) (b₀ : Bench Entries) (steps : List (Step β)) (member : UInt64) :
    Prop where
  /-- A token is found if it is good and the store can be read. -/
  find : ∀ token, let b := s.after Memory.backend steps b₀
    (b.run Memory.backend (s.tokens.find member)).1 = some token ↔ b.failing .get = none ∧
      IsGood s.tokens.cache.lifetime b.now (held member (s.moments Memory.backend steps b₀)) token
  /-- A token that is presented is current under the same condition. -/
  isCurrent : ∀ presented, let b := s.after Memory.backend steps b₀
    (b.run Memory.backend (s.tokens.isCurrent member presented)).1 = true ↔
      b.failing .get = none ∧ IsGood s.tokens.cache.lifetime b.now
        (held member (s.moments Memory.backend steps b₀)) presented
  /-- A revocation ends a token if there is a good one and the store can be reached. -/
  revoke : let b := s.after Memory.backend steps b₀
    (b.run Memory.backend (s.tokens.revoke member)).1 = true ↔ b.failing .delete = none ∧
      ∃ token, IsGood s.tokens.cache.lifetime b.now
        (held member (s.moments Memory.backend steps b₀)) token
  /-- The answers are the same without the steps of other members. -/
  apart : let b := s.after Memory.backend steps b₀
    let b' := s.after Memory.backend (steps.filter (Step.concerns member)) b₀
    (b'.run Memory.backend (s.tokens.find member)).1 =
        (b.run Memory.backend (s.tokens.find member)).1 ∧
      (∀ presented, (b'.run Memory.backend (s.tokens.isCurrent member presented)).1 =
        (b.run Memory.backend (s.tokens.isCurrent member presented)).1) ∧
      (b'.run Memory.backend (s.tokens.revoke member)).1 =
        (b.run Memory.backend (s.tokens.revoke member)).1

/-- **Only the current token is good**, over every run of a shop on a fresh store, and no member has a
part in what another one is answered. -/
theorem tokens_current (t : Lifetimes) {notes : String} (start : Instant) (member : UInt64)
    (steps : List (Step β)) (hspares : ∀ o, .operate o ∈ steps → o.SparesTokens notes) :
    OnlyCurrent (Shop.make t notes) (freshBench start) steps member := by
  have hentry := find?_after_eq_held t start member steps hspares
  have hmine := find?_after_eq_held t start member (steps.filter (Step.concerns member))
    fun o ho => hspares o (List.mem_filter.mp ho).1
  obtain ⟨hnow, hfailing, hheld⟩ :=
    held_concerning (Shop.make t notes) Memory.backend member steps (freshBench start)
  refine ⟨fun token => find_eq_some_iff token hentry, fun token => isCurrent_iff token hentry,
    revoke_iff hentry, ?_, ?_, ?_⟩
  · refine Option.ext fun token => ?_
    have hfind := find_eq_some_iff token hmine
    rw [hnow, hfailing, hheld] at hfind
    exact hfind.trans (find_eq_some_iff token hentry).symm
  · intro presented
    have hcurrent := isCurrent_iff presented hmine
    rw [hnow, hfailing, hheld] at hcurrent
    exact Bool.eq_iff_iff.mpr (hcurrent.trans (isCurrent_iff presented hentry).symm)
  · have hrevoke := revoke_iff hmine
    rw [hnow, hfailing, hheld] at hrevoke
    exact Bool.eq_iff_iff.mpr (hrevoke.trans (revoke_iff hentry).symm)

/-- A member is given a second token, and a third that the store fails to keep, while another member's
token is revoked. -/
def rotation : List (Step Nat) :=
  [.operate (.saveToken 7 "first"), .operate (.saveToken 8 "other"), .advance (.ofSeconds 1),
    .operate (.saveToken 7 "second"), .order .set (some (.timedOut (.ofSeconds 1))),
    .operate (.saveToken 7 "third"), .order .set none, .operate (.revokeToken 8)]

/-- Only the second token is current. -/
theorem tokens_current_rotation :
    (∀ o, .operate o ∈ rotation → o.SparesTokens "named") ∧
      (["first", "second", "third"].map fun token =>
        (((Shop.make {} "named").after Memory.backend rotation (freshBench .start)).run
          Memory.backend ((Shop.make {} "named").tokens.isCurrent 7 token)).1) =
            [false, true, false] ∧
      OnlyCurrent (Shop.make {} "named") (freshBench .start) rotation 7 := by
  have hspares : ∀ o, .operate o ∈ rotation → o.SparesTokens "named" := by
    intro o ho
    refine ⟨fun _ _ => ⟨by decide, by decide⟩, ?_⟩
    rintro o' rfl
    simp [rotation] at ho
  exact ⟨hspares, by decide +kernel, tokens_current {} .start 7 rotation hspares⟩

end Shop

end Turnstile
