import Turnstile.Proofs.Gate.Exclusion
import Turnstile.Proofs.Key.Requests
import Turnstile.Proofs.Text.Decimal
import Turnstile.Web.Admission

/-! # One request at the gate

What becomes of a request is settled before the application sees it (`judge`): it goes on to the
application, or it is too long, or it is a duplicate. The answer follows from the verdict alone
(`respond_eq_judge`), so the application is handed the request as it came, once or not at all.

A request is too long if it says so or if it is (`TooLong`). What it says is its first
`Content-Length`, if that can be read and is a number; `Says` spells out on the bytes of the headers
what can be read. The lock of a request is the one under the name of its actor, its method, the
resource of its path, and the fingerprint of its body (`storeKey_requestKey`). -/

namespace Turnstile

open Turnstile.Http Turnstile.Store Turnstile.Text

/-! ### Headers -/

namespace Http

/-- The first header of this name, written in letters of any case, can be read, and this is its
text. -/
def Request.Says (r : Request) (name : String) (cs : List Char) : Prop :=
  ∃ before h after, r.headers = before ++ h :: after ∧
    (∀ g ∈ before, Header.lower g.name ≠ name.toList) ∧ Header.lower h.name = name.toList ∧
    (∀ b ∈ h.value, b = 0x09 ∨ 0x20 ≤ b ∧ b ≤ 0x7e) ∧
    cs = h.value.map fun b => Char.ofNat b.toNat

theorem Header.text?_eq_some_iff {value : List UInt8} {cs : List Char} :
    Header.text? value = some cs ↔
      (∀ b ∈ value, b = 0x09 ∨ 0x20 ≤ b ∧ b ≤ 0x7e) ∧
        cs = value.map fun b => Char.ofNat b.toNat := by
  have hall : value.all Header.isReadable = true ↔
      ∀ b ∈ value, b = 0x09 ∨ 0x20 ≤ b ∧ b ≤ 0x7e := by
    simp [List.all_eq_true, Header.isReadable]
  unfold Header.text?
  rw [← hall]
  split
  · next h => simp [h, eq_comm]
  · next h => simp [h]

theorem Request.header?_eq_some_iff {r : Request} {name : String} {cs : List Char} :
    r.header? name = some cs ↔ r.Says (String.ofList (Header.lower name)) cs := by
  unfold Request.header? Header.read? Header.first? Request.Says
  simp only [Option.bind_eq_some_iff, Option.map_eq_some_iff, List.find?_eq_some_iff_append,
    decide_eq_true_iff, Bool.not_eq_true', decide_eq_false_iff_not, Header.text?_eq_some_iff,
    String.toList_ofList]
  constructor
  · rintro ⟨value, ⟨h, ⟨hname, before, after, heq, hbefore⟩, rfl⟩, hreadable, hcs⟩
    exact ⟨before, h, after, heq, hbefore, hname, hreadable, hcs⟩
  · rintro ⟨before, h, after, heq, hbefore, hname, hreadable, hcs⟩
    exact ⟨h.value, ⟨h, ⟨hname, before, after, heq, hbefore⟩, rfl⟩, hreadable, hcs⟩

end Http

namespace Web.Admission

/-! ### Lengths -/

/-- The request says that its body has this length, a number of 64 bits. -/
def Declares (r : Request) (n : Nat) : Prop :=
  ∃ cs, r.Says "content-length" cs ∧ Decimal.Unsigned cs n ∧ n < UInt64.size

/-- The request declares a body above the limit, or has one. -/
def TooLong (limit : Nat) (r : Request) : Prop :=
  (∃ n, Declares r n ∧ limit < n) ∨ limit < r.body.length

theorem declaredLength?_eq_some_iff {r : Request} {x : UInt64} :
    declaredLength? r = some x ↔ Declares r x.toNat := by
  have hread : ∀ cs, (Decimal.readUInt64 cs).toOption = some x ↔ Decimal.Unsigned cs x.toNat := by
    intro cs
    rw [← Decimal.readUInt64_eq_ok_iff]
    cases Decimal.readUInt64 cs <;> simp [Except.toOption]
  have hheader : ∀ cs, r.header? "Content-Length" = some cs ↔ r.Says "content-length" cs := by
    intro cs
    exact Request.header?_eq_some_iff
  simp only [declaredLength?, Option.bind_eq_some_iff, hheader, hread]
  constructor
  · rintro ⟨cs, hcs, hnumber⟩
    exact ⟨cs, hcs, hnumber, x.toNat_lt_size⟩
  · rintro ⟨cs, hcs, hnumber, -⟩
    exact ⟨cs, hcs, hnumber⟩

theorem isTooLong_iff {a : Admission} {r : Request} :
    a.isTooLong r = true ↔ TooLong a.bodyLimit.toNat r := by
  have hdeclared : (declaredLength? r).any (a.bodyLimit < ·) = true ↔
      ∃ n, Declares r n ∧ a.bodyLimit.toNat < n := by
    constructor
    · intro h
      obtain ⟨x, hx, hlt⟩ := (Option.any_eq_true _ _).mp h
      exact ⟨x.toNat, declaredLength?_eq_some_iff.mp hx,
        UInt64.lt_iff_toNat_lt.mp (of_decide_eq_true hlt)⟩
    · rintro ⟨n, hn, hlt⟩
      have hsize : n < UInt64.size := by
        obtain ⟨-, -, -, h⟩ := hn
        exact h
      have hnat : (UInt64.ofNat n).toNat = n := UInt64.toNat_ofNat_of_lt' hsize
      have hx : declaredLength? r = some (UInt64.ofNat n) := by
        rw [declaredLength?_eq_some_iff, hnat]
        exact hn
      rw [hx]
      refine decide_eq_true (UInt64.lt_iff_toNat_lt.mpr ?_)
      rwa [hnat]
  unfold isTooLong TooLong
  rw [Bool.or_eq_true, hdeclared, decide_eq_true_iff]

theorem isTooLong_eq_false_iff {a : Admission} {r : Request} :
    a.isTooLong r = false ↔ ¬ TooLong a.bodyLimit.toNat r := by
  rw [← isTooLong_iff, Bool.not_eq_true]

/-! ### Methods and locks -/

theorem isMutating_iff {method : String} :
    isMutating method = true ↔ method ∈ ["POST", "PUT", "PATCH", "DELETE"] := by
  unfold isMutating mutatingMethods
  exact List.contains_iff_mem

theorem not_mem_method {method : String} (h : isMutating method = true) {c : Char}
    (hc : c.isUpper = false) : c ∉ method.toList := by
  have hupper : ∀ m ∈ ["POST", "PUT", "PATCH", "DELETE"], m.toList.all Char.isUpper = true := by
    decide
  intro hmem
  rw [List.all_eq_true.mp (hupper method (isMutating_iff.mp h)) c hmem] at hc
  cases hc

theorem upper_method {method : String} (h : isMutating method = true) :
    String.ofList (RequestKey.upper method.toList) = method := by
  have hupper : ∀ m ∈ ["POST", "PUT", "PATCH", "DELETE"],
      String.ofList (RequestKey.upper m.toList) = m := by decide
  exact hupper method (isMutating_iff.mp h)

theorem requestKey_eq {r : Request} (h : isMutating r.method = true) :
    requestKey r = ⟨Sender.lockActor r, r.method,
      String.ofList (RequestKey.resource r.target.path.toList),
      if r.body = [] then none else some (Digest.Sha256.hexDigest r.body)⟩ := by
  have hkey : requestKey r = (RequestKey.make (Sender.lockActor r) r.method r.target.path).salted
      [.body r.body] := rfl
  rw [hkey, RequestKey.salted_make, upper_method h]
  cases r.body <;> rfl

/-- **The lock of a request**: who sends it, with which method, to which resource, and with which
body. -/
theorem storeKey_requestKey {r : Request} (h : isMutating r.method = true) :
    (requestKey r).storeKey = "request-lock:" ++ Sender.lockActor r ++ ":" ++ r.method ++ ":" ++
      String.ofList (RequestKey.resource r.target.path.toList) ++
      (if r.body = [] then "" else "#" ++ Digest.Sha256.hexDigest r.body) := by
  rw [requestKey_eq h, ← String.toList_inj, RequestKey.toList_storeKey, RequestKey.tail]
  by_cases hbody : r.body = [] <;> simp [hbody, Key.requestLock]

/-! ### Verdicts -/

/-- What becomes of a request. -/
inductive Verdict where
  | forward
  | tooLong
  | duplicate
  deriving DecidableEq, Repr

/-- Settles what becomes of a request. -/
def judge (a : Admission) (r : Request) : Program Verdict := do
  if !isMutating r.method then return .forward
  else if a.isTooLong r then return .tooLong
  else if ← a.gate.tryAcquire (requestKey r) then return .forward
  else return .duplicate

/-- What follows from a verdict. -/
def carryOut (a : Admission) (inner : Request → Program Response) (r : Request) :
    Verdict → Program Response
  | .forward => inner r
  | .tooLong => return (Problem.payloadTooLarge a.bodyLimit.toNat).response
  | .duplicate => return (Problem.duplicateRequest Problem.duplicateMessage).response

variable {a : Admission} {inner : Request → Program Response} {r : Request}

theorem judge_of_safe (h : isMutating r.method = false) : a.judge r = pure .forward := by
  simp [judge, h]

theorem judge_of_tooLong (h : isMutating r.method = true) (hlong : a.isTooLong r = true) :
    a.judge r = pure .tooLong := by
  simp [judge, h, hlong]

theorem judge_of_fits (h : isMutating r.method = true) (hlong : a.isTooLong r = false) :
    a.judge r = a.gate.tryAcquire (requestKey r) >>= fun passed =>
      pure (if passed then .forward else .duplicate) := by
  simp only [judge, h, hlong, Bool.not_true, Bool.false_eq_true, if_false]
  refine bind_congr fun passed => ?_
  cases passed <;> rfl

/-- **The verdict decides.** The application answers if the verdict is that it shall, and has no part
in the answer otherwise. -/
theorem respond_eq_judge (a : Admission) (inner : Request → Program Response) (r : Request) :
    a.respond inner r = a.judge r >>= a.carryOut inner r := by
  unfold respond judge
  cases isMutating r.method with
  | false => simp [carryOut]
  | true =>
    cases a.isTooLong r with
    | true => simp [carryOut]
    | false =>
      simp only [Bool.not_true, Bool.false_eq_true, if_false, bind_assoc]
      refine bind_congr fun passed => ?_
      cases passed <;> simp [carryOut]

/-- **An attempt on any store.** It gives one command and goes by its answer. -/
theorem run_tryAcquire {σ : Type} (h : Handler σ) (g : Gate) (key : RequestKey) (s : σ) :
    (g.tryAcquire key).run h s =
      let reply := h.perform (.setIfAbsent key.storeKey "1" g.lifetime) s
      match reply.1 with
      | .ok true => (true, h.note (.counted .gateAcquired) reply.2)
      | .ok false => (false, h.note (.counted .gateRejected) reply.2)
      | .error _ =>
        (false, h.note (.counted .gateRejected) (h.note (.counted .gateStoreErrors) reply.2)) := by
  rw [Gate.tryAcquire, Program.run_bind, Program.run_command]
  generalize h.perform (.setIfAbsent key.storeKey "1" g.lifetime) s = reply
  obtain ⟨answer, s'⟩ := reply
  rcases answer with e | taken
  · rfl
  · cases taken <;> rfl

end Web.Admission

end Turnstile
