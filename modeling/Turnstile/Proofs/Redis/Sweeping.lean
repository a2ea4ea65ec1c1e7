import Mathlib.Data.Finset.Lattice.Basic
import Turnstile.Proofs.Redis.Server
import Turnstile.Proofs.Store.Removal

/-! # A sweep removes what begins with its stem

A sweep talks to a server: each thing that it sends is answered, and the answer settles what it sends
next (`Exchange`). One page of the server, with the removal of its keys, is one or two exchanges
(`exchanges_page`). Since an iteration of the server ends, so does the sweep, and all keys that were
reported are gone (`exists_swept`). These are the keys that begin with the stem: only such keys are
picked, and one that is still there at the end would have been reported.

So there is one talk of a sweep with a server that keeps its promises (`talk_unique`), and it comes to
the same answer and leaves the same keys as the store in memory (`removes_stem`). -/

namespace Turnstile

open Turnstile.Store Turnstile.Text Turnstile.Time Relation

namespace Redis

/-! ### Replies are read as they are meant -/

section read

variable {limit : Span}

theorem texts?_bulks (keys : List String) :
    (Reply.array (keys.map fun key => .bulk (Utf8.encode key))).texts? = some keys := by
  have htext : ∀ key, (Reply.bulk (Utf8.encode key)).text? = some key := by
    intro key
    rw [Reply.text?, Utf8.decode_encode]
    rfl
  show List.mapM Reply.text? _ = _
  induction keys with
  | nil => rfl
  | cons key keys ih => simp [List.mapM_cons, htext, ih]

theorem read_ofPage (page : UInt64 × List String) :
    (Outcome.reply (.ofPage page)).read limit Reply.page? = .ok page := by
  have hcursor : (Reply.bulk (Utf8.encode (Sweep.argument page.1.toNat))).unsigned? = some page.1 := by
    rw [Reply.unsigned?, Utf8.decode_encode]
    simp only [Except.toOption, Option.bind_some, Server.readUInt64_argument]
  have hpage : (Reply.ofPage page).page? = some page := by
    rw [Reply.ofPage, Reply.page?, hcursor, texts?_bulks]
    rfl
  unfold Outcome.read
  rw [Reply.ofPage] at hpage ⊢
  simp only [hpage]

theorem read_integer (limit : Span) {n : Int64} {count : Nat} (h : n.toInt = count) :
    ∃ m : UInt64, (Outcome.reply (.integer n)).read limit Reply.unsigned? = .ok m ∧
      m.toNat = count := by
  refine ⟨n.toUInt64, rfl, ?_⟩
  have hle : 0 ≤ n := by
    rw [Int64.le_iff_toInt_le, h]
    exact Int.natCast_nonneg count
  rw [Int64.toNat_toUInt64_of_le hle, Int64.toNatClampNeg, h, Int.toNat_natCast]

end read

namespace Sweep

variable {σ : Type} {srv : Server σ} {limit : Span} {stem : String}

/-! ### Talks -/

/-- The sweep has something to send. -/
def Runs (x : Sweep) : Prop := ∀ removed, x ≠ done removed

theorem done_or_runs (x : Sweep) : (∃ removed, x = done removed) ∨ x.Runs := by
  cases x with
  | done removed => exact Or.inl ⟨removed, rfl⟩
  | asking cursor removed => exact Or.inr fun _ h => nomatch h
  | removing keys next removed => exact Or.inr fun _ h => nomatch h

theorem run_nil {x : Sweep} (hx : x.Runs) :
    x.run limit stem [] = ⟨[x.words stem], .error (.timedOut limit), []⟩ := by
  cases x with
  | done removed => exact absurd rfl (hx removed)
  | asking cursor removed => rfl
  | removing keys next removed => rfl

theorem run_cons {x : Sweep} (hx : x.Runs) (o : Outcome) (outcomes : List Outcome) :
    x.run limit stem (o :: outcomes) =
      match x.step limit o with
      | .error failure => ⟨[x.words stem], .error failure, outcomes⟩
      | .ok next =>
        { next.run limit stem outcomes with
          sent := x.words stem :: (next.run limit stem outcomes).sent } := by
  cases x with
  | done removed => exact absurd rfl (hx removed)
  | asking cursor removed => rfl
  | removing keys next removed => rfl

/-- One thing is sent, and the answer leads to where the sweep stands next. -/
def Exchange (srv : Server σ) (limit : Span) (stem : String) (x y : Sweep × σ) : Prop :=
  x.1.Runs ∧ ∃ o, srv.answer (x.1.words stem) x.2 = (o, y.2) ∧ x.1.step limit o = .ok y.1

theorem exists_talk {x : Sweep × σ} {removed : Nat} {s' : σ}
    (h : ReflTransGen (Exchange srv limit stem) x (done removed, s')) :
    ∃ outcomes, srv.answers (x.1.run limit stem outcomes).sent x.2 = (outcomes, s') ∧
      (x.1.run limit stem outcomes).result = .ok removed := by
  induction h using ReflTransGen.head_induction_on with
  | refl => exact ⟨[], rfl, rfl⟩
  | @head x y hexchange _ ih =>
    obtain ⟨hx, o, hanswer, hstep⟩ := hexchange
    obtain ⟨outcomes, hanswers, hresult⟩ := ih
    refine ⟨o :: outcomes, ?_⟩
    rw [run_cons hx, hstep]
    dsimp only
    rw [Server.answers, hanswer]
    dsimp only
    rw [hanswers]
    exact ⟨rfl, hresult⟩

theorem talk_done {removed : Nat} {outcomes : List Outcome} {s s' : σ}
    (h : srv.answers ((done removed).run limit stem outcomes).sent s = (outcomes, s')) :
    outcomes = [] ∧ s' = s := by
  simp only [run, Server.answers, Prod.mk.injEq] at h
  exact ⟨h.1.symm, h.2.symm⟩

/-- **The server settles the talk.** -/
theorem talk_unique {outcomes₁ outcomes₂ : List Outcome} {x : Sweep} {s s₁ s₂ : σ}
    (h₁ : srv.answers (x.run limit stem outcomes₁).sent s = (outcomes₁, s₁))
    (h₂ : srv.answers (x.run limit stem outcomes₂).sent s = (outcomes₂, s₂)) :
    outcomes₁ = outcomes₂ ∧ s₁ = s₂ := by
  induction outcomes₁ generalizing outcomes₂ x s with
  | nil =>
    obtain ⟨removed, rfl⟩ | hx := x.done_or_runs
    · obtain ⟨-, rfl⟩ := talk_done h₁
      obtain ⟨rfl, rfl⟩ := talk_done h₂
      exact ⟨rfl, rfl⟩
    · rw [run_nil hx] at h₁
      cases (Prod.mk.inj h₁).1
  | cons o₁ outcomes₁ ih =>
    obtain ⟨removed, rfl⟩ | hx := x.done_or_runs
    · cases (talk_done h₁).1
    · cases outcomes₂ with
      | nil =>
        rw [run_nil hx] at h₂
        cases (Prod.mk.inj h₂).1
      | cons o₂ outcomes₂ =>
        -- Both talks begin with what the sweep sends first, so with the same answer.
        have hfirst : ∀ {o : Outcome} {outcomes : List Outcome} {s' : σ},
            srv.answers (x.run limit stem (o :: outcomes)).sent s = (o :: outcomes, s') →
              (srv.answer (x.words stem) s).1 = o := by
          intro o outcomes s' h
          rw [run_cons hx] at h
          split at h <;> exact (List.cons.inj (Prod.mk.inj h).1).1
        obtain rfl : o₁ = o₂ := (hfirst h₁).symm.trans (hfirst h₂)
        rw [run_cons hx] at h₁ h₂
        cases hstep : x.step limit o₁ with
        | error failure =>
          rw [hstep] at h₁ h₂
          obtain ⟨hrest₁, hlast₁⟩ := Prod.mk.inj h₁
          obtain ⟨hrest₂, hlast₂⟩ := Prod.mk.inj h₂
          exact ⟨hrest₁.symm.trans hrest₂, hlast₁.symm.trans hlast₂⟩
        | ok next =>
          rw [hstep] at h₁ h₂
          obtain ⟨hrest₁, hlast₁⟩ := Prod.mk.inj h₁
          obtain ⟨hrest₂, hlast₂⟩ := Prod.mk.inj h₂
          obtain ⟨rfl, rfl⟩ := ih (Prod.ext (List.cons.inj hrest₁).2 hlast₁)
            (Prod.ext (List.cons.inj hrest₂).2 hlast₂)
          exact ⟨rfl, rfl⟩

/-! ### One page -/

theorem words_asking (cursor : UInt64) (removed : Nat) : (asking cursor removed).words stem =
    ["SCAN", argument cursor.toNat, "MATCH", Glob.ofStem stem, "COUNT",
      argument (500 : UInt64).toNat] := by
  have hsize : (500 : UInt64).toNat = pageSize := rfl
  rw [words, hsize]

variable (hserves : srv.Serves (Glob.ofStem stem))
include hserves

/-- **A page** is asked for, and its keys are removed. -/
theorem exchanges_page (limit : Span) (cursor : UInt64) (removed : Nat) (s : σ) :
    let page := srv.scan cursor (Glob.ofStem stem) 500 s
    ∃ s', ReflTransGen (Exchange srv limit stem) (asking cursor removed, s)
        (goOn page.1.1 (removed + (srv.keys s ∩ page.1.2.toFinset).card), s') ∧
      srv.Removals page.2 s' ∧ srv.keys s' = srv.keys s \ page.1.2.toFinset := by
  intro page
  have hkeys : srv.keys page.2 = srv.keys s := hserves.keys_scan cursor 500 s
  have hscan : srv.answer ((asking cursor removed).words stem) s =
      (.reply (.ofPage page.1), page.2) := by
    rw [words_asking]
    exact srv.answer_scan cursor _ (by decide) s
  have hasked : Exchange srv limit stem (asking cursor removed, s)
      (if page.1.2.isEmpty then goOn page.1.1 removed else removing page.1.2 page.1.1 removed,
        page.2) := by
    refine ⟨(fun _ h => nomatch h), _, hscan, ?_⟩
    rw [step, read_ofPage]
    rfl
  cases hpage : page.1.2 with
  | nil =>
    rw [hpage] at hasked
    refine ⟨page.2, ?_, .refl, by simp [hkeys]⟩
    simpa using ReflTransGen.single hasked
  | cons key keys =>
    rw [hpage] at hasked
    have hdel : srv.answer ((removing (key :: keys) page.1.1 removed).words stem) page.2 =
        (.reply (.integer (srv.remove (key :: keys) page.2).1), (srv.remove (key :: keys) page.2).2) :=
      srv.answer_del (List.cons_ne_nil key keys) page.2
    obtain ⟨m, hread, hm⟩ := read_integer limit (hserves.removed (key :: keys) page.2)
    rw [hkeys] at hm
    have hremoved : Exchange srv limit stem (removing (key :: keys) page.1.1 removed, page.2)
        (goOn page.1.1 (removed + (srv.keys s ∩ (key :: keys).toFinset).card),
          (srv.remove (key :: keys) page.2).2) := by
      refine ⟨(fun _ h => nomatch h), _, hdel, ?_⟩
      rw [step, hread, ← hm]
      rfl
    refine ⟨_, (ReflTransGen.single hasked).tail hremoved, .single ⟨key :: keys, rfl⟩, ?_⟩
    rw [hserves.keys_remove, hkeys]

/-! ### Whole sweeps -/

omit hserves in
theorem card_inter_append (held : Finset String) (page reported : List String) :
    (held ∩ page.toFinset).card + ((held \ page.toFinset) ∩ reported.toFinset).card =
      (held ∩ (page ++ reported).toFinset).card := by
  rw [← Finset.card_union_of_disjoint]
  · congr 1
    ext key
    simp only [List.toFinset_append, Finset.mem_union, Finset.mem_inter, Finset.mem_sdiff]
    tauto
  · refine Finset.disjoint_left.mpr fun key hpage hlater => ?_
    exact (Finset.mem_sdiff.mp (Finset.mem_inter.mp hlater).1).2 (Finset.mem_inter.mp hpage).2

/-- What a sweep from a page on comes to: where it stands is a cursor and a state of the server. -/
structure Swept (srv : Server σ) (limit : Span) (stem : String) (x : UInt64 × σ) (removed : Nat)
    (reported : List String) (s' : σ) : Prop where
  exchanges : ReflTransGen (Exchange srv limit stem) (asking x.1 removed, x.2)
    (done (removed + (srv.keys x.2 ∩ reported.toFinset).card), s')
  /-- The server saw an iteration, and then perhaps a removal. -/
  iteration : ∃ s, srv.Iteration (Glob.ofStem stem) 500 x.1 x.2 reported s ∧
    srv.keys s' ⊆ srv.keys s
  keys : srv.keys s' = srv.keys x.2 \ reported.toFinset

/-- **A sweep ends where the iteration ends.** -/
theorem exists_swept (limit : Span) {x : UInt64 × σ}
    (hends : Acc (fun y x => srv.Follows (Glob.ofStem stem) 500 x y) x) (removed : Nat) :
    ∃ reported s', Swept srv limit stem x removed reported s' := by
  induction hends generalizing removed with
  | intro x _ ih =>
    obtain ⟨s₁, hpage, hremovals, hkeys⟩ := exchanges_page hserves limit x.1 removed x.2
    by_cases hnext : (srv.scan x.1 (Glob.ofStem stem) 500 x.2).1.1 = 0
    · rw [goOn, if_pos hnext] at hpage
      refine ⟨_, s₁, hpage, ⟨_, .last hnext, ?_⟩, hkeys⟩
      rw [hkeys, hserves.keys_scan]
      exact Finset.sdiff_subset
    · rw [goOn, if_neg hnext] at hpage
      have hfollows : srv.Follows (Glob.ofStem stem) 500 x
          ((srv.scan x.1 (Glob.ofStem stem) 500 x.2).1.1, s₁) := ⟨hnext, rfl, hremovals⟩
      obtain ⟨reported, s', hswept⟩ := ih _ hfollows
        (removed + (srv.keys x.2 ∩ (srv.scan x.1 (Glob.ofStem stem) 500 x.2).1.2.toFinset).card)
      obtain ⟨s, hiteration, hsubset⟩ := hswept.iteration
      refine ⟨_, s', ?_, ⟨s, .more hfollows hiteration, hsubset⟩, ?_⟩
      · have hrest := hpage.trans hswept.exchanges
        rw [hkeys, Nat.add_assoc, card_inter_append] at hrest
        exact hrest
      · rw [hswept.keys, hkeys, List.toFinset_append, sdiff_sdiff_left, Finset.sup_eq_union]

theorem picks_of_iteration {cursor : UInt64} {s s' : σ} {reported : List String}
    (h : srv.Iteration (Glob.ofStem stem) 500 cursor s reported s') :
    ∀ key ∈ reported, Glob.picks (Glob.ofStem stem) key = true := by
  induction h with
  | last _ => exact hserves.picks _ _ _
  | more _ _ ih =>
    intro key hkey
    exact (List.mem_append.mp hkey).elim (hserves.picks _ _ _ key) (ih key)

/-- **What was reported** of the keys at first is what begins with the stem. -/
theorem mem_reported_iff {s s' : σ} {removed : Nat} {reported : List String}
    (h : Swept srv limit stem (0, s) removed reported s') {key : String} (hkey : key ∈ srv.keys s) :
    key ∈ reported ↔ beginsWith stem key = true := by
  obtain ⟨last, hiteration, hsubset⟩ := h.iteration
  rw [← Glob.picks_ofStem]
  constructor
  · exact picks_of_iteration hserves hiteration key
  · intro hpicks
    by_contra hnot
    have hleft : key ∈ srv.keys s' := by
      rw [h.keys]
      exact Finset.mem_sdiff.mpr ⟨hkey, fun hmem => hnot (List.mem_toFinset.mp hmem)⟩
    exact hnot (hserves.complete 500 s reported last hiteration key (hsubset hleft) hpicks)

end Sweep

end Redis

/-! ### Sweeps and the store in memory -/

namespace Redis

variable {σ : Type} {srv : Server σ} {stem : String}

/-- **A sweep removes what begins with its stem.** With a server that keeps its promises a client has
exactly one talk about it. It is answered with the number of keys that begin with the stem, and the
others are left: the same answer and the same keys as in memory. -/
theorem removes_stem (h : srv.Serves (Glob.ofStem stem)) (c : Client) (s : σ) :
    ∃ outcomes s',
      (∀ outcomes₁ s₁,
        srv.answers (c.run outcomes₁ (.deleteByPrefix stem)).sent s = (outcomes₁, s₁) ↔
          outcomes₁ = outcomes ∧ s₁ = s') ∧
      (c.run outcomes (.deleteByPrefix stem)).result =
        .ok ((srv.keys s).filter fun key => beginsWith stem key = true).card ∧
      srv.keys s' = ((srv.keys s).filter fun key => ¬ beginsWith stem key = true) ∧
      ∀ now m, (Memory.keys now m).toFinset = srv.keys s →
        (Memory.step now (.deleteByPrefix stem) m).1 =
            (c.run outcomes (.deleteByPrefix stem)).result ∧
          (Memory.keys now (Memory.step now (.deleteByPrefix stem) m).2).toFinset = srv.keys s' := by
  obtain ⟨reported, s', hswept⟩ := Sweep.exists_swept h c.limit (h.ends 500 s) 0
  obtain ⟨outcomes, htalk, hresult⟩ := Sweep.exists_talk hswept.exchanges
  have hmem : ∀ key ∈ srv.keys s, key ∈ reported ↔ beginsWith stem key = true :=
    fun key => Sweep.mem_reported_iff h hswept
  have hremoved : srv.keys s ∩ reported.toFinset =
      (srv.keys s).filter fun key => beginsWith stem key = true := by
    ext key
    rw [Finset.mem_inter, Finset.mem_filter, List.mem_toFinset]
    exact and_congr_right (hmem key)
  have hleft : srv.keys s' = (srv.keys s).filter fun key => ¬ beginsWith stem key = true := by
    rw [hswept.keys]
    ext key
    rw [Finset.mem_sdiff, Finset.mem_filter, List.mem_toFinset]
    exact and_congr_right fun hkey => not_congr (hmem key hkey)
  rw [Nat.zero_add, hremoved] at hresult
  refine ⟨outcomes, s', fun outcomes₁ s₁ => ⟨fun h₁ => Sweep.talk_unique h₁ htalk, ?_⟩, hresult, hleft,
    fun now m hkeys => ⟨?_, ?_⟩⟩
  · rintro ⟨rfl, rfl⟩
    exact htalk
  · rw [Memory.answer_deleteByPrefix, hkeys]
    exact hresult.symm
  · rw [Memory.keys_deleteByPrefix, hkeys, hleft]

/-- Keys by their length, on three shelves. -/
def byLength (key : String) : Fin 3 := ⟨key.length % 3, Nat.mod_lt _ (by decide)⟩

/-- Keys of which some begin with characters that a pattern could take for something else. -/
def starred : Stocked := ⟨["a*[b", "a*[b1", "axb", "a*[", "a*[b:page:2"], by decide⟩

/-- The same keys in memory. -/
def starredEntries : Entries := starred.1.foldl (fun m key => Memory.plant key "" m) .empty

/-- Two shelves hold keys that begin with the stem. The page of the first one is empty. -/
theorem removes_stem_starred :
    (shelves byLength).Serves (Glob.ofStem "a*[b") ∧
      (Memory.keys .start starredEntries).toFinset = (shelves byLength).keys starred ∧
      ∃ outcomes s',
        (shelves byLength).answers
            ((Client.mk (.ofSeconds 10)).run outcomes (.deleteByPrefix "a*[b")).sent starred =
          (outcomes, s') ∧
        ((Client.mk (.ofSeconds 10)).run outcomes (.deleteByPrefix "a*[b")).result = .ok 3 ∧
        (shelves byLength).keys s' = {"axb", "a*["} ∧
        (Memory.step .start (.deleteByPrefix "a*[b") starredEntries).1 = .ok 3 := by
  have hserves : (shelves byLength).Serves (Glob.ofStem "a*[b") :=
    serves_shelves (by decide) byLength _
  have hkeys : (Memory.keys .start starredEntries).toFinset = (shelves byLength).keys starred := by
    rw [Memory.toFinset_keys]
    decide +kernel
  have hcount : ((shelves byLength).keys starred |>.filter fun key =>
      beginsWith "a*[b" key = true).card = 3 := by
    decide +kernel
  obtain ⟨outcomes, s', htalk, hresult, hleft, hmemory⟩ :=
    removes_stem hserves ⟨.ofSeconds 10⟩ starred
  rw [hcount] at hresult
  refine ⟨hserves, hkeys, outcomes, s', (htalk outcomes s').mpr ⟨rfl, rfl⟩, hresult, ?_,
    (hmemory .start starredEntries hkeys).1.trans hresult⟩
  rw [hleft]
  decide +kernel

end Redis

end Turnstile
