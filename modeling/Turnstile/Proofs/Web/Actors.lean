import Turnstile.Proofs.Web.Arrivals

/-! # Two actors

The name of a lock begins with the actor's text as it came, and an actor may be any text that a header
holds. So an actor's text can go on where another's ends, with a colon, the other's method and the
beginning of the other's resource (`Continues`): then both requests have one lock, and who comes
second is turned away as a duplicate of a request that another actor sent. Nothing else brings two
actors together (`isolated_iff_not_continues`), and actors without a colon before a slash, such as all
addresses and all numbers, are apart (`isolated_of_not_hasColonSlash`).

The resources that a client can ask for begin with a slash, or are the asterisk alone
(`Target.path_of_parse?`), so no method can be mistaken for one. -/

namespace Turnstile

open Turnstile.Http Turnstile.Store Turnstile.Text Turnstile.Time

/-! ### Paths that can be asked for -/

namespace Http.Target

theorem path_of_pathAndQuery? {cs : List Char} {t : Target} (h : pathAndQuery? cs = some t)
    (hcs : ∀ c rest, cs = c :: rest → endsAuthority c = true) :
    ∃ rest, t.path.toList = '/' :: rest := by
  have hpath : t.path = String.ofList
      (if ((cs.takeWhile (· ≠ '#')).takeWhile (· ≠ '?')).isEmpty then ['/']
        else (cs.takeWhile (· ≠ '#')).takeWhile (· ≠ '?')) := by
    unfold pathAndQuery? at h
    cases hcut : Split.cut '?' (Split.cut '#' cs).1 with
    | mk path query =>
      obtain rfl : (cs.takeWhile (· ≠ '#')).takeWhile (· ≠ '?') = path := congrArg Prod.fst hcut
      rw [hcut] at h
      dsimp only at h
      split at h
      · exact (Option.some.inj h) ▸ rfl
      · cases h
  rw [hpath, String.toList_ofList]
  cases cs with
  | nil => exact ⟨[], rfl⟩
  | cons c rest =>
    have hc := hcs c rest rfl
    simp only [endsAuthority, Bool.or_eq_true, decide_eq_true_iff] at hc
    rcases hc with (rfl | rfl) | rfl
    · exact ⟨_, rfl⟩
    · exact ⟨[], rfl⟩
    · exact ⟨[], rfl⟩

/-- **What a client can ask for**: a path from the root, all there is, or nothing. -/
theorem path_of_parse? {s : String} {t : Target} (h : parse? s = some t) :
    t.path = "" ∨ t.path = "*" ∨ ∃ rest, t.path.toList = '/' :: rest := by
  unfold parse? at h
  split at h
  · cases h
  split at h
  · cases h
  · exact Or.inr (Or.inl (Option.some.inj h ▸ rfl))
  · refine Or.inr (Or.inr (path_of_pathAndQuery? h fun c rest hc => ?_))
    obtain ⟨rfl, -⟩ := List.cons.inj hc
    rfl
  · unfold wholeOrAuthority? at h
    split at h
    · cases h
    · split at h
      · exact Or.inl (Option.some.inj h ▸ rfl)
      · cases h
    · next rest _ =>
      dsimp only at h
      split at h
      · cases h
      split at h
      · refine Or.inr (Or.inr (path_of_pathAndQuery? h fun c rest' hc => ?_))
        have hhead := List.head?_dropWhile_not (!endsAuthority ·) rest
        rw [hc] at hhead
        simpa using hhead
      · cases h

end Http.Target

theorem Text.Hex.colon_not_mem_ofBytes (bytes : List UInt8) : ':' ∉ ofBytes bytes := by
  have hdigit : ∀ n : Fin 16, ':' ≠ digit n := by decide
  intro h
  obtain ⟨b, -, hb⟩ := List.mem_flatMap.mp h
  have hlt := b.toNat_lt
  simp only [ofByte, List.mem_cons, List.not_mem_nil, or_false] at hb
  rcases hb with hb | hb
  · exact hdigit ⟨b.toNat / 16, by omega⟩ hb
  · exact hdigit ⟨b.toNat % 16, by omega⟩ hb

namespace RequestKey

theorem head_resource (path : List Char) :
    resource path = ['/'] ∨ ∃ c rest rest', resource path = c :: rest ∧ path = c :: rest' := by
  obtain ⟨stem, slashes, rest, hpath, -, -, -, -, hresource⟩ := names_resource path
  cases stem with
  | nil => exact Or.inl hresource
  | cons c stem => exact Or.inr ⟨c, stem, stem ++ slashes ++ rest, hresource, by simp [hpath]⟩

end RequestKey

namespace Gate

variable {k : String} {b b' : Bench Entries}

theorem free_congr (hfailing : b'.failing = b.failing) (hnow : b'.now = b.now)
    (hfind : b'.store.find? k = b.store.find? k) : Free k b' ↔ Free k b := by
  unfold Free Entries.live?
  rw [hfailing, hnow, hfind]

theorem isLive_lock (g : Gate) (now : Instant) :
    (g.lock now).isLive now = true ↔ now < now.after g.lifetime :=
  Entry.isLive_of_expiry rfl

/-- **A lock after an attempt**: it is free if it was, and the attempt did not take it. -/
theorem free_tryAcquire_iff (g : Gate) (key : RequestKey) :
    Free k (b.run Memory.backend (g.tryAcquire key)).2 ↔
      Free k b ∧ ¬ (key.storeKey = k ∧ b.now < b.now.after g.lifetime) := by
  have hstore := (run_tryAcquire g key b).2.1
  by_cases hkey : Free key.storeKey b
  · rw [if_pos hkey] at hstore
    unfold Free
    rw [Bench.failing_run, Bench.now_run, hstore, Entries.live?_put, ← isLive_lock, and_assoc]
    refine and_congr_right fun _ => ?_
    by_cases hk : k = key.storeKey
    · rw [if_pos hk, hk, Option.filter_eq_none_iff]
      simp [hkey.2]
    · rw [if_neg hk]
      simp [Ne.symm hk]
  · rw [if_neg hkey] at hstore
    rw [free_congr (Bench.failing_run _ _ _) (Bench.now_run _ _ _) (by rw [hstore])]
    refine ⟨fun hfree => ⟨hfree, fun htaken => ?_⟩, fun h => h.1⟩
    exact hkey (htaken.1 ▸ hfree)

end Gate

namespace Web.Admission

variable {a : Admission} {inner : Request → Program Response} {r s : Request} {b : Bench Entries}

/-- The request's target is one that a client can ask for. -/
def Sendable (r : Request) : Prop := ∃ sent, Target.parse? sent = some r.target

theorem head_tail (hr : isMutating r.method = true) (hsent : Sendable r) :
    ∃ c rest, (requestKey r).tail = c :: rest ∧ (c = '/' ∨ c = '*' ∧ ':' ∉ rest) := by
  obtain ⟨print, hprint, hcolon⟩ : ∃ print, (requestKey r).tail =
      RequestKey.resource r.target.path.toList ++ print ∧ ':' ∉ print := by
    refine ⟨(requestKey r).fingerprint.elim [] fun f => '#' :: f.toList, ?_, ?_⟩
    · rw [RequestKey.tail, requestKey_eq hr, String.toList_ofList]
    · rw [requestKey_eq hr]
      by_cases hbody : r.body = []
      · simp [hbody]
      · simp [hbody, Digest.Sha256.hexDigest, Hex.colon_not_mem_ofBytes]
  obtain ⟨sent, hparse⟩ := hsent
  rcases RequestKey.head_resource r.target.path.toList with hroot | ⟨c, rest, rest', hhead, hpath⟩
  · exact ⟨'/', print, by rw [hprint, hroot]; rfl, Or.inl rfl⟩
  rcases Target.path_of_parse? hparse with hempty | hstar | ⟨rest'', hrooted⟩
  · rw [hempty] at hpath
    cases hpath
  · have hresource : RequestKey.resource "*".toList = ['*'] := by decide
    exact ⟨'*', print, by rw [hprint, hstar, hresource]; rfl, Or.inr ⟨rfl, hcolon⟩⟩
  · obtain ⟨rfl, -⟩ := List.cons.inj (hpath.symm.trans hrooted)
    exact ⟨'/', rest ++ print, by rw [hprint, hhead]; rfl, Or.inl rfl⟩

/-! ### When two requests have one lock -/

/-- The actor of the second request goes on, behind the first one, with the first request's method and
the beginning of its resource; and the rest of the first request's resource is the second request's
method and resource, each behind a colon. -/
def Continues (r s : Request) : Prop :=
  ∃ u, (Sender.lockActor s).toList =
      (Sender.lockActor r).toList ++ ':' :: (r.method.toList ++ ':' :: '/' :: u) ∧
    (requestKey r).tail = '/' :: u ++ ':' :: (s.method.toList ++ ':' :: (requestKey s).tail)

theorem hasColonSlash_of_continues (h : Continues r s) :
    RequestKey.HasColonSlash (Sender.lockActor s) := by
  obtain ⟨u, hu, -⟩ := h
  exact RequestKey.hasColonSlash_of_append hu

theorem storeKey_eq_iff (hr : isMutating r.method = true) (hs : isMutating s.method = true) :
    (requestKey r).storeKey = (requestKey s).storeKey ↔
      (Sender.lockActor r).toList ++ ':' :: (r.method.toList ++ ':' :: (requestKey r).tail) =
        (Sender.lockActor s).toList ++ ':' :: (s.method.toList ++ ':' :: (requestKey s).tail) := by
  have hparts : ∀ {q : Request}, isMutating q.method = true →
      (requestKey q).actor = Sender.lockActor q ∧ (requestKey q).method = q.method := fun h => by
    rw [requestKey_eq h]
    exact ⟨rfl, rfl⟩
  rw [RequestKey.storeKey_eq_iff, (hparts hr).1, (hparts hr).2, (hparts hs).1, (hparts hs).2]

theorem storeKey_eq_of_continues (hr : isMutating r.method = true) (hs : isMutating s.method = true)
    (h : Continues r s) : (requestKey r).storeKey = (requestKey s).storeKey := by
  obtain ⟨u, hactor, htail⟩ := h
  rw [storeKey_eq_iff hr hs, hactor, htail]
  simp

/-- **Two actors have one lock** only if one goes on where the other ends. -/
theorem storeKey_eq_iff_continues (hr : isMutating r.method = true)
    (hs : isMutating s.method = true) (hsentr : Sendable r) (hsents : Sendable s)
    (hactor : Sender.lockActor r ≠ Sender.lockActor s) :
    (requestKey r).storeKey = (requestKey s).storeKey ↔ Continues r s ∨ Continues s r := by
  constructor
  · intro h
    rw [storeKey_eq_iff hr hs] at h
    obtain ⟨c, x, hx, hc⟩ := head_tail hr hsentr
    obtain ⟨d, y, hy, hd⟩ := head_tail hs hsents
    have hmark : ∀ {e : Char} {rest : List Char}, e = '/' ∨ e = '*' ∧ ':' ∉ rest →
        e ≠ ':' ∧ e.isUpper = false := by
      rintro e rest (rfl | ⟨rfl, -⟩) <;> decide
    rw [hx, hy] at h
    rcases Key.overlap (not_mem_method hr (by decide)) (not_mem_method hs (by decide))
      (hmark hc).1 (not_mem_method hs (hmark hc).2) (hmark hd).1 (not_mem_method hr (hmark hd).2) h
      with ⟨hsame, -⟩ | ⟨u, hu, hrest⟩ | ⟨u, hu, hrest⟩
    · exact absurd (String.toList_inj.mp hsame) hactor
    · rcases hc with rfl | ⟨rfl, hcolon⟩
      · exact Or.inl ⟨u, hu, by rw [hx, hrest, hy]; rfl⟩
      · exact absurd (by rw [hrest]; simp) hcolon
    · rcases hd with rfl | ⟨rfl, hcolon⟩
      · exact Or.inr ⟨u, hu, by rw [hy, hrest, hx]; rfl⟩
      · exact absurd (by rw [hrest]; simp) hcolon
  · rintro (h | h)
    · exact storeKey_eq_of_continues hr hs h
    · exact (storeKey_eq_of_continues hs hr h).symm

/-! ### One request after another -/

theorem within_carryOut {P : Command → Prop} (hinner : (inner r).Within P) (v : Verdict) :
    (a.carryOut inner r v).Within P := by
  cases v with
  | forward => exact hinner
  | tooLong => exact Program.within_pure _
  | duplicate => exact Program.within_pure _

theorem free_after_iff (hr : isMutating r.method = true) (hfits : a.isTooLong r = false) {k : String}
    (hinner : (inner r).Within fun c => ¬ c.Writes k) :
    Gate.Free k (b.run Memory.backend (a.respond inner r)).2 ↔
      Gate.Free k b ∧ ¬ ((requestKey r).storeKey = k ∧ b.now < b.now.after a.gate.lifetime) := by
  have hattempt : (b.run Memory.backend (a.judge r)).2 =
      (b.run Memory.backend (a.gate.tryAcquire (requestKey r))).2 := by
    rw [run_judge_of_fits hr hfits]
  rw [run_respond, Gate.free_congr (Bench.failing_run _ _ _) (Bench.now_run _ _ _)
    (Bench.find?_run (within_carryOut hinner _) _), hattempt]
  exact Gate.free_tryAcquire_iff a.gate (requestKey r)

/-- Sending `r` before `s`, at the same reading of the clock, makes no difference to whether the
application is handed `s`. -/
def Isolated (a : Admission) (inner : Request → Program Response) (r s : Request)
    (b : Bench Entries) : Prop :=
  a.Admits s (b.run Memory.backend (a.respond inner r)).2 ↔ a.Admits s b

instance (a : Admission) (inner : Request → Program Response) (r s : Request) (b : Bench Entries) :
    Decidable (Isolated a inner r s b) := by
  unfold Isolated; infer_instance

theorem isolated_iff (hr : isMutating r.method = true) (hs : isMutating s.method = true)
    (hfitsr : a.isTooLong r = false) (hfitss : a.isTooLong s = false)
    (hinner : (inner r).Within fun c => ¬ c.Writes (requestKey s).storeKey) :
    Isolated a inner r s b ↔ ¬ (Gate.Free (requestKey s).storeKey b ∧
      (requestKey r).storeKey = (requestKey s).storeKey ∧ b.now < b.now.after a.gate.lifetime) := by
  have hadmits : ∀ b', a.Admits s b' ↔ Gate.Free (requestKey s).storeKey b' := by
    intro b'
    simp [admits_iff, hs, hfitss]
  unfold Isolated
  rw [hadmits, hadmits, free_after_iff hr hfitsr hinner]
  tauto

/-- **Addresses and numbers are apart.** Actors that hold no colon before a slash do not meet. -/
theorem isolated_of_not_hasColonSlash (hr : isMutating r.method = true)
    (hs : isMutating s.method = true) (hfitsr : a.isTooLong r = false)
    (hfitss : a.isTooLong s = false) (hsentr : Sendable r) (hsents : Sendable s)
    (hactor : Sender.lockActor r ≠ Sender.lockActor s)
    (hinner : (inner r).Within fun c => ¬ c.Writes (requestKey s).storeKey)
    (hmarkr : ¬ RequestKey.HasColonSlash (Sender.lockActor r))
    (hmarks : ¬ RequestKey.HasColonSlash (Sender.lockActor s)) : Isolated a inner r s b := by
  rw [isolated_iff hr hs hfitsr hfitss hinner,
    storeKey_eq_iff_continues hr hs hsentr hsents hactor]
  rintro ⟨-, h | h, -⟩
  · exact hmarks (hasColonSlash_of_continues h)
  · exact hmarkr (hasColonSlash_of_continues h)

/-- **When actors meet.** A request of one actor makes a difference to another actor's if and only if
one actor's text goes on where the other's ends, and the lock that both requests have then was free
and stays taken for some time. -/
theorem isolated_iff_not_continues (a : Admission) (inner : Request → Program Response)
    (r s : Request) (b : Bench Entries) (hr : isMutating r.method = true)
    (hs : isMutating s.method = true) (hfitsr : ¬ TooLong a.bodyLimit.toNat r)
    (hfitss : ¬ TooLong a.bodyLimit.toNat s) (hsentr : Sendable r) (hsents : Sendable s)
    (hactor : Sender.lockActor r ≠ Sender.lockActor s)
    (hinner : (inner r).Within fun c => ¬ c.Writes (requestKey s).storeKey) :
    Isolated a inner r s b ↔ ¬ (Gate.Free (requestKey s).storeKey b ∧
      (Continues r s ∨ Continues s r) ∧ b.now < b.now.after a.gate.lifetime) := by
  rw [isolated_iff hr hs (isTooLong_eq_false_iff.mpr hfitsr) (isTooLong_eq_false_iff.mpr hfitss)
    hinner, storeKey_eq_iff_continues hr hs hsentr hsents hactor]

/-- A gate with the usual lifetime that reads a kilobyte. -/
def smallGate : Admission := ⟨⟨Gate.defaultLifetime⟩, 1024⟩

/-- A request of actor 7, for a resource with colons in its name. -/
def ordinary : Request where
  method := "POST"
  target := ⟨"/api/echo/a:POST:/api/echo/b", none⟩
  headers := [⟨"X-Actor-Id", Utf8.encode "7"⟩]
  actor := none
  peer := none
  body := []

/-- A request of an actor whose text goes on where actor 7 ends. -/
def intruding : Request where
  method := "POST"
  target := ⟨"/api/echo/b", none⟩
  headers := [⟨"X-Actor-Id", Utf8.encode "7:POST:/api/echo/a"⟩]
  actor := none
  peer := none
  body := []

theorem continues_intruding : Continues ordinary intruding :=
  ⟨"api/echo/a".toList, by decide +kernel, by decide +kernel⟩

theorem lockActor_intruding : Sender.lockActor intruding ≠ Sender.lockActor ordinary := by
  decide +kernel

theorem sendable_intruding : Sendable intruding := ⟨"/api/echo/b", by decide +kernel⟩

theorem sendable_ordinary : Sendable ordinary :=
  ⟨"/api/echo/a:POST:/api/echo/b", by decide +kernel⟩

theorem not_tooLong_of_mem :
    ∀ r ∈ [intruding, ordinary], ¬ TooLong smallGate.bodyLimit.toNat r := by
  have hfits : ∀ r ∈ [intruding, ordinary], smallGate.isTooLong r = false := by decide +kernel
  exact fun r hr => isTooLong_eq_false_iff.mp (hfits r hr)

/-- The intruding request takes the ordinary one's lock, and makes a difference to it, on a store
where that lock is free. -/
theorem isolated_iff_not_continues_echo :
    Gate.Free (requestKey ordinary).storeKey (Shop.freshBench .start) ∧
      ¬ Isolated smallGate Site.echo intruding ordinary (Shop.freshBench .start) := by
  have hfree : Gate.Free (requestKey ordinary).storeKey (Shop.freshBench .start) := by
    decide +kernel
  have hiff := isolated_iff_not_continues smallGate Site.echo intruding ordinary
    (Shop.freshBench .start) (by decide) (by decide) (not_tooLong_of_mem _ (by simp))
    (not_tooLong_of_mem _ (by simp)) sendable_intruding sendable_ordinary lockActor_intruding
    (Site.within_withBody (Program.within_pure _))
  exact ⟨hfree, fun h => hiff.mp h ⟨hfree, Or.inr continues_intruding, by decide⟩⟩

/-- Not all requests of different actors are isolated from each other, even if all that the
application does is to echo them. -/
theorem not_isolated :
    ¬ ∀ (a : Admission) (r s : Request) (b : Bench Entries),
      isMutating r.method = true → isMutating s.method = true →
      ¬ TooLong a.bodyLimit.toNat r → ¬ TooLong a.bodyLimit.toNat s → Sendable r → Sendable s →
      Sender.lockActor r ≠ Sender.lockActor s → Isolated a Site.echo r s b := by
  intro h
  have hisolated := h smallGate intruding ordinary (Shop.freshBench .start) (by decide) (by decide)
    (not_tooLong_of_mem _ (by simp)) (not_tooLong_of_mem _ (by simp)) sendable_intruding
    sendable_ordinary lockActor_intruding
  have hcontended : ¬ Isolated smallGate Site.echo intruding ordinary (Shop.freshBench .start) := by
    decide +kernel
  exact hcontended hisolated

end Web.Admission

end Turnstile
