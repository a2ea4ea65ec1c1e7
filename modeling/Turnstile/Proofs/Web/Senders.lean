import Turnstile.Proofs.Config.Loading
import Turnstile.Proofs.Http.Addresses
import Turnstile.Proofs.Web.Admission

/-! # Whose a request is

The address of a client can come with a request in three ways: passed on as the first of a list, as
the one that a proxy saw, or as the other end of the connection (`Comes`). In a header it can be
written in any way that is read as the address, with spaces and tabs round it. Each way is followed
exactly (`address?_eq_some_iff`), one in the absence of the ones before it.

A request is the actor's who was authenticated, or else the one's whom a header names (`Names`). One
without an actor of its own (`Unnamed`) is its address's, and if it has none, nobody's (`Acts`). For
the gate the actor is then the address as it is written, not as it came, so it is the same whichever
way the address came (`same_address_same_actor`). -/

namespace Turnstile

open Turnstile.Http Turnstile.Text

/-! ### White space in headers -/

theorem Http.Address.not_isBlank_of_isMark {c : Char} (h : IsMark c) : Blank.isBlank c = false := by
  rcases h with hdigit | rfl | rfl
  · obtain ⟨n, hn⟩ := Option.isSome_iff_exists.mp hdigit
    have hall : ∀ k : Fin 128, (Hex.value? (Char.ofNat k)).isSome = true →
        Blank.isBlank (Char.ofNat k) = false := by decide +kernel
    have hread := hall ⟨c.toNat, (Hex.bounds_of_value? hn).1⟩
    rw [Char.ofNat_toNat] at hread
    exact hread hdigit
  · decide
  · decide

namespace Web.Sender

/-- The character is a space or a tab. -/
def IsGap (c : Char) : Prop := c = ' ' ∨ c = '\t'

theorem isBlank_of_isGap {c : Char} (h : IsGap c) : Blank.isBlank c = true := by
  rcases h with rfl | rfl <;> decide

variable {r : Request} {name : String} {c : Char} {cs : List Char} {a : Address}

theorem isGap_of_mem_header (h : r.Says name cs) (hc : c ∈ cs) (hblank : Blank.isBlank c = true) :
    IsGap c := by
  obtain ⟨_, h, _, _, _, _, hreadable, rfl⟩ := h
  obtain ⟨b, hb, rfl⟩ := List.mem_map.mp hc
  have hrange : b.toNat = 0x09 ∨ 0x20 ≤ b.toNat ∧ b.toNat ≤ 0x7e := by
    rcases hreadable b hb with rfl | hb
    · exact Or.inl rfl
    · simp only [UInt8.le_iff_toNat_le] at hb
      exact Or.inr hb
  have hall : ∀ k : Fin 128, (k.val = 0x09 ∨ 0x20 ≤ k.val) → Blank.isBlank (Char.ofNat k) = true →
      Char.ofNat k = ' ' ∨ Char.ofNat k = '\t' := by decide +kernel
  exact hall ⟨b.toNat, by omega⟩ (hrange.imp_right And.left) hblank

/-! ### Where an address is written -/

/-- The text is the address, written in some way, with spaces and tabs round it. -/
def Wraps (a : Address) (cs : List Char) : Prop :=
  ∃ before s after, cs = before ++ s ++ after ∧ (∀ c ∈ before, IsGap c) ∧ (∀ c ∈ after, IsGap c) ∧
    Address.ofChars? s = some a

/-- The first of the elements, which have commas between them, is the address. -/
def Leads (a : Address) (cs : List Char) : Prop :=
  ∃ first rest, cs = first ++ rest ∧ Wraps a first ∧ (rest = [] ∨ ∃ more, rest = ',' :: more)

/-- In a header, what trimming takes away is spaces and tabs. -/
theorem trim_eq_iff (hgap : ∀ c ∈ cs, Blank.isBlank c = true → IsGap c) {text : List Char} :
    Blank.trim cs = text ↔ ∃ before after, cs = before ++ text ++ after ∧
      (∀ c ∈ before, IsGap c) ∧ (∀ c ∈ after, IsGap c) ∧ (∀ c ∈ text.head?, ¬ IsGap c) ∧
      ∀ c ∈ text.getLast?, ¬ IsGap c := by
  have hiff : ∀ c ∈ cs, Blank.isBlank c = true ↔ IsGap c := fun c hc =>
    ⟨hgap c hc, isBlank_of_isGap⟩
  simp only [Blank.trim_eq_iff, ← Bool.not_eq_true]
  refine exists_congr fun before => exists_congr fun after => and_congr_right ?_
  rintro rfl
  simp only [List.mem_append] at hiff
  refine and_congr (forall₂_congr fun c hc => hiff c (.inl (.inl hc))) ?_
  refine and_congr (forall₂_congr fun c hc => hiff c (.inr hc)) ?_
  refine and_congr (forall₂_congr fun c hc => not_congr (hiff c (.inl (.inr ?_)))) ?_
  · exact List.mem_of_mem_head? hc
  · exact forall₂_congr fun c hc =>
      not_congr (hiff c (.inl (.inr (List.mem_of_mem_getLast? hc))))

theorem Wraps.ofChars?_trim (h : Wraps a cs) : Address.ofChars? (Blank.trim cs) = some a := by
  obtain ⟨before, s, after, rfl, hbefore, hafter, hs⟩ := h
  have hmark : ∀ c ∈ s, Blank.isBlank c = false := fun c hc =>
    Address.not_isBlank_of_isMark (Address.isMark_of_ofChars? hs hc)
  rwa [Blank.trim_append (fun c hc => isBlank_of_isGap (hbefore c hc))
    (fun c hc => isBlank_of_isGap (hafter c hc))
    (fun c hc => hmark c (List.mem_of_mem_head? hc))
    (fun c hc => hmark c (List.mem_of_mem_getLast? hc))]

theorem wraps_of_ofChars?_trim (hgap : ∀ c ∈ cs, Blank.isBlank c = true → IsGap c)
    (h : Address.ofChars? (Blank.trim cs) = some a) : Wraps a cs := by
  obtain ⟨before, after, hcs, hbefore, hafter, -⟩ := (trim_eq_iff hgap).mp rfl
  exact ⟨before, _, after, hcs, hbefore, hafter, h⟩

theorem Wraps.comma_not_mem (h : Wraps a cs) : ',' ∉ cs := by
  obtain ⟨before, s, after, rfl, hbefore, hafter, hs⟩ := h
  have hgap : ¬ IsGap ',' := by unfold IsGap; decide
  simp only [List.mem_append, not_or]
  exact ⟨⟨fun hc => hgap (hbefore _ hc), Address.comma_not_mem_of_ofChars? hs⟩,
    fun hc => hgap (hafter _ hc)⟩

theorem Leads.ofChars?_trim (h : Leads a cs) :
    Address.ofChars? (Blank.trim (Split.cut ',' cs).1) = some a := by
  obtain ⟨first, rest, rfl, hfirst, rfl | ⟨more, rfl⟩⟩ := h
  · rw [List.append_nil, Split.cut_of_not_mem hfirst.comma_not_mem]
    exact hfirst.ofChars?_trim
  · rw [Split.cut_append_of_not_mem hfirst.comma_not_mem]
    exact hfirst.ofChars?_trim

theorem leads_of_ofChars?_trim (hgap : ∀ c ∈ cs, Blank.isBlank c = true → IsGap c)
    (h : Address.ofChars? (Blank.trim (Split.cut ',' cs).1) = some a) : Leads a cs := by
  have hcs := Split.append_cut ',' cs
  have hfirst : ∀ c ∈ (Split.cut ',' cs).1, c ∈ cs := by
    intro c hc
    rw [← hcs]
    exact List.mem_append_left _ hc
  refine ⟨_, _, hcs.symm, wraps_of_ofChars?_trim (fun c hc => hgap c (hfirst c hc)) h, ?_⟩
  cases (Split.cut ',' cs).2 with
  | none => exact Or.inl rfl
  | some more => exact Or.inr ⟨more, rfl⟩

/-- Proxies passed the address on. -/
def Forwards (r : Request) (a : Address) : Prop :=
  ∃ cs, r.Says "x-forwarded-for" cs ∧ Leads a cs

/-- A proxy tells the address that it saw. -/
def Reports (r : Request) (a : Address) : Prop :=
  ∃ cs, r.Says "x-real-ip" cs ∧ Wraps a cs

theorem forwarded?_eq_some_iff : forwarded? r = some a ↔ Forwards r a := by
  have hheader : ∀ cs, r.header? forwardedHeader = some cs ↔ r.Says "x-forwarded-for" cs := by
    intro cs
    exact Request.header?_eq_some_iff
  simp only [forwarded?, Option.bind_eq_some_iff, hheader]
  constructor
  · rintro ⟨cs, hcs, h⟩
    exact ⟨cs, hcs, leads_of_ofChars?_trim (fun _ => isGap_of_mem_header hcs) h⟩
  · rintro ⟨cs, hcs, h⟩
    exact ⟨cs, hcs, h.ofChars?_trim⟩

theorem seenByProxy?_eq_some_iff : seenByProxy? r = some a ↔ Reports r a := by
  have hheader : ∀ cs, r.header? realAddressHeader = some cs ↔ r.Says "x-real-ip" cs := by
    intro cs
    exact Request.header?_eq_some_iff
  simp only [seenByProxy?, Option.bind_eq_some_iff, hheader]
  constructor
  · rintro ⟨cs, hcs, h⟩
    exact ⟨cs, hcs, wraps_of_ofChars?_trim (fun _ => isGap_of_mem_header hcs) h⟩
  · rintro ⟨cs, hcs, h⟩
    exact ⟨cs, hcs, h.ofChars?_trim⟩

/-- The ways in which the address of its client comes with a request. -/
inductive Comes (a : Address) (r : Request) : Prop where
  | forwarded (h : Forwards r a)
  | seenByProxy (h : Reports r a) (hforwarded : ∀ b, ¬ Forwards r b)
  | peer (h : r.peer = some a) (hforwarded : ∀ b, ¬ Forwards r b) (hreported : ∀ b, ¬ Reports r b)

theorem eq_none_iff_of_eq_some_iff {β : Type} {o : Option β} {P : β → Prop}
    (h : ∀ x, o = some x ↔ P x) : o = none ↔ ∀ x, ¬ P x := by
  simp only [Option.eq_none_iff_forall_ne_some, ne_eq, h]

/-- **Each way is followed**, and no other. -/
theorem address?_eq_some_iff : address? r = some a ↔ Comes a r := by
  simp only [address?, Option.or_eq_some_iff, Option.or_eq_none_iff, forwarded?_eq_some_iff,
    seenByProxy?_eq_some_iff, eq_none_iff_of_eq_some_iff fun _ => forwarded?_eq_some_iff,
    eq_none_iff_of_eq_some_iff fun _ => seenByProxy?_eq_some_iff]
  constructor
  · rintro ((h | ⟨hforwarded, h⟩) | ⟨⟨hforwarded, hreported⟩, h⟩)
    · exact .forwarded h
    · exact .seenByProxy h hforwarded
    · exact .peer h hforwarded hreported
  · rintro (h | ⟨h, hforwarded⟩ | ⟨h, hforwarded, hreported⟩)
    · exact Or.inl (Or.inl h)
    · exact Or.inl (Or.inr ⟨hforwarded, h⟩)
    · exact Or.inr ⟨⟨hforwarded, hreported⟩, h⟩

/-! ### Whose a request is -/

/-- A header names the actor, with spaces and tabs round the name. -/
def Names (r : Request) (actor : String) : Prop :=
  ∃ before after, r.Says "x-actor-id" (before ++ actor.toList ++ after) ∧
    (∀ c ∈ before, IsGap c) ∧ (∀ c ∈ after, IsGap c) ∧ actor ≠ "" ∧
    (∀ c ∈ actor.toList.head?, ¬ IsGap c) ∧ ∀ c ∈ actor.toList.getLast?, ¬ IsGap c

/-- Nobody was authenticated, and no header that can be read names anybody. -/
def Unnamed (r : Request) : Prop :=
  r.actor = none ∧ ∀ cs, r.Says "x-actor-id" cs → ∀ c ∈ cs, IsGap c

/-- Whose a request is. -/
inductive Acts (r : Request) : String → Prop where
  | authenticated {actor : String} (h : r.actor = some actor) : Acts r actor
  | named {actor : String} (h : Names r actor) (hactor : r.actor = none) : Acts r actor
  | addressed {a : Address} (h : Comes a r) (hr : Unnamed r) : Acts r a.text
  | unknown (hr : Unnamed r) (haddress : ∀ a, ¬ Comes a r) : Acts r "anonymous"

theorem trim_eq_nil_iff (hgap : ∀ c ∈ cs, Blank.isBlank c = true → IsGap c) :
    Blank.trim cs = [] ↔ ∀ c ∈ cs, IsGap c := by
  rw [trim_eq_iff hgap]
  constructor
  · rintro ⟨before, after, rfl, hbefore, hafter, -⟩ c hc
    simp only [List.append_nil, List.mem_append] at hc
    exact hc.elim (hbefore c) (hafter c)
  · intro h
    exact ⟨cs, [], by simp, h, nofun, nofun, nofun⟩

theorem header?_actorHeader_iff : r.header? actorHeader = some cs ↔ r.Says "x-actor-id" cs :=
  Request.header?_eq_some_iff

theorem actor?_eq_none_iff : actor? r = none ↔ Unnamed r := by
  rw [actor?, Option.or_eq_none_iff, Unnamed]
  refine and_congr_right fun _ => ?_
  simp only [← header?_actorHeader_iff]
  rw [namedActor?]
  cases hcs : r.header? actorHeader with
  | none => simp
  | some cs =>
    have hempty := trim_eq_nil_iff fun _ => isGap_of_mem_header (header?_actorHeader_iff.mp hcs)
    simp only [Option.map_some, Option.bind_some, Option.some.injEq, forall_eq', ← hempty,
      List.isEmpty_iff]
    split <;> simp_all

theorem namedActor?_eq_some_iff {actor : String} : namedActor? r = some actor ↔ Names r actor := by
  have hread : namedActor? r = some actor ↔
      ∃ cs, r.Says "x-actor-id" cs ∧ Blank.trim cs = actor.toList ∧ actor ≠ "" := by
    rw [namedActor?, Option.bind_map, Option.bind_eq_some_iff]
    simp only [header?_actorHeader_iff, Function.comp_apply, Option.ite_none_left_eq_some,
      Option.some.injEq, List.isEmpty_iff]
    refine exists_congr fun cs => and_congr_right fun _ => ?_
    constructor
    · rintro ⟨hne, rfl⟩
      exact ⟨String.toList_ofList.symm, by simpa using hne⟩
    · rintro ⟨htrim, hne⟩
      rw [htrim, String.ofList_toList]
      exact ⟨by simpa using hne, rfl⟩
  rw [hread]
  constructor
  · rintro ⟨cs, hcs, htrim, hne⟩
    obtain ⟨before, after, rfl, hbefore, hafter, hends⟩ :=
      (trim_eq_iff fun _ => isGap_of_mem_header hcs).mp htrim
    exact ⟨before, after, hcs, hbefore, hafter, hne, hends⟩
  · rintro ⟨before, after, hcs, hbefore, hafter, hne, hends⟩
    exact ⟨_, hcs, (trim_eq_iff fun _ => isGap_of_mem_header hcs).mpr
      ⟨before, after, rfl, hbefore, hafter, hends⟩, hne⟩

/-- **The actor of the gate** is the one whose the request is. -/
theorem acts_iff {actor : String} : Acts r actor ↔ lockActor r = actor := by
  have hnowhere : address? r = none ↔ ∀ a, ¬ Comes a r :=
    eq_none_iff_of_eq_some_iff fun _ => address?_eq_some_iff
  constructor
  · rintro (h | ⟨h, hactor⟩ | ⟨h, hr⟩ | ⟨hr, haddress⟩)
    · simp [lockActor, actor?, h]
    · simp [lockActor, actor?, hactor, namedActor?_eq_some_iff.mpr h]
    · simp [lockActor, actor?_eq_none_iff.mpr hr, address?_eq_some_iff.mpr h]
    · simp [lockActor, actor?_eq_none_iff.mpr hr, hnowhere.mpr haddress, anonymous]
  · rintro rfl
    cases hactor : r.actor with
    | some actor => simpa [lockActor, actor?, hactor] using Acts.authenticated hactor
    | none =>
      cases hnamed : namedActor? r with
      | some actor =>
        simpa [lockActor, actor?, hactor, hnamed] using
          Acts.named (namedActor?_eq_some_iff.mp hnamed) hactor
      | none =>
        have hnone : actor? r = none := by simp [actor?, hactor, hnamed]
        have hr := actor?_eq_none_iff.mp hnone
        cases haddress : address? r with
        | some a =>
          simpa [lockActor, hnone, haddress] using
            Acts.addressed (address?_eq_some_iff.mp haddress) hr
        | none =>
          simpa [lockActor, hnone, haddress, anonymous] using
            Acts.unknown hr (hnowhere.mp haddress)

theorem lockActor_of_comes (hr : Unnamed r) (h : Comes a r) : lockActor r = a.text :=
  acts_iff.mp (.addressed h hr)

/-- **The same address is the same actor, however it arrives.** An address is read from the text that
is written for it. A request without an actor of its own is, for the gate, that text's, whichever way
the address came and however it was written there. So two such requests have the same key, if they
have one method, path and body. -/
theorem same_address_same_actor (a : Address) :
    Address.ofText? a.text = some a ∧
      (∀ r, Unnamed r → Comes a r → lockActor r = a.text) ∧
      ∀ r r', Unnamed r → Unnamed r' → Comes a r → Comes a r' → r.method = r'.method →
        r.target.path = r'.target.path → r.body = r'.body →
        Admission.requestKey r = Admission.requestKey r' := by
  refine ⟨a.ofText?_text, fun r => lockActor_of_comes, ?_⟩
  intro r r' hr hr' h h' hmethod hpath hbody
  rw [Admission.requestKey, Admission.requestKey, lockActor_of_comes hr h, lockActor_of_comes hr' h',
    hmethod, hpath, hbody]

/-- An address of version 6. -/
def someClient : Address := .v6 #v[0x2001, 0xdb8, 0, 0, 0, 0, 0, 0xff]

/-- An order that comes with these headers, over a connection from this address. -/
def order (headers : List (String × String)) (peer : Option Address) : Request where
  method := "POST"
  target := ⟨"/api/orders", none⟩
  headers := headers.map fun h => ⟨h.1, Utf8.encode h.2⟩
  actor := none
  peer := peer
  body := []

/-- The same address in upper case, with zeros and points, as the first of a list; as it is, where the
list has none; and as the other end of the connection, where no header has one. -/
theorem same_address_same_actor_someClient :
    let passedOn := order [("x-actor-id", " \t"),
      ("X-Forwarded-For", "\t2001:DB8:0::0.0.0.255 , 10.0.0.1")] (some .localhost)
    let seen := order [("x-real-ip", " 2001:db8::ff"), ("x-forwarded-for", "unknown, 10.0.0.1")] none
    let direct := order [("x-real-ip", "10.0.0.256")] (some someClient)
    (∀ r ∈ [passedOn, seen, direct], Unnamed r ∧ Comes someClient r ∧
        lockActor r = someClient.text) ∧
      Admission.requestKey passedOn = Admission.requestKey seen ∧
      Admission.requestKey seen = Admission.requestKey direct ∧
      someClient.text = "2001:db8::ff" := by
  intro passedOn seen direct
  obtain ⟨-, hactor, hkey⟩ := same_address_same_actor someClient
  have hunnamed : ∀ r ∈ [passedOn, seen, direct], Unnamed r := by
    have hactors : ∀ r ∈ [passedOn, seen, direct], actor? r = none := by decide +kernel
    exact fun r hr => actor?_eq_none_iff.mp (hactors r hr)
  have hcomes : ∀ r ∈ [passedOn, seen, direct], Comes someClient r := by
    have haddresses : ∀ r ∈ [passedOn, seen, direct], address? r = some someClient := by
      decide +kernel
    exact fun r hr => address?_eq_some_iff.mp (haddresses r hr)
  refine ⟨fun r hr => ⟨hunnamed r hr, hcomes r hr, hactor r (hunnamed r hr) (hcomes r hr)⟩, ?_, ?_,
    by decide +kernel⟩
  · exact hkey _ _ (hunnamed _ (by simp)) (hunnamed _ (by simp)) (hcomes _ (by simp))
      (hcomes _ (by simp)) rfl rfl rfl
  · exact hkey _ _ (hunnamed _ (by simp)) (hunnamed _ (by simp)) (hcomes _ (by simp))
      (hcomes _ (by simp)) rfl rfl rfl

end Web.Sender

end Turnstile
