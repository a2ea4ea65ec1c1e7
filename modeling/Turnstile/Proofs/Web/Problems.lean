import Turnstile.Proofs.Json.Lawful
import Turnstile.Proofs.Json.Literals
import Turnstile.Web.Problem

/-! # What a problem tells

A problem can come about in many ways, one inside another (`Origin`): it is stated, or it is what
became of a failure, of a refused page or of a guarded operation, and a source can be attached to it
at any time. Much of that is not for clients: the text of a failure, how the store failed, the key of a
lock, a source. `Origin.blanked` is the same origin with all of it left blank.

Nothing of it gets into the status, the code or the message (`Origin.told_blanked`), and a response is
made of these three alone (`Problem.response_congr`). So problems whose origins are the same but for
what is not told cannot be told apart (`tells_nothing_else`). What is told can be read off the response,
whatever characters the code and the message are made of (`Problem.writtenFields_body`). -/

namespace Turnstile

/-! ### Objects of texts -/

namespace Json

/-- The text is one of an object with these fields in this order, each of which holds a text. -/
def WrittenFields (fields : List (String × String)) (text : String) : Prop :=
  ∃ tree, parse text.toList = some (.object tree) ∧
    List.Forall₂ (fun f g => f.1.Means g.1 ∧ ∃ l, f.2 = .text l ∧ l.Means g.2) tree fields

theorem Literal.means_reread_ofText (s : String) : (ofText s).reread.Means s := by
  rw [← text?_eq_some_iff, text?_reread, text?_ofText]

/-- **An object of texts reads back**, whatever has to be escaped in it. -/
theorem writtenFields_compact (fields : List (String × String)) :
    WrittenFields fields (record (fields.map fun f => (f.1, ofText f.2))).compact := by
  have hsound : (record (fields.map fun f => (f.1, ofText f.2))).Sound := by
    refine sound_record fun f hf => ?_
    obtain ⟨g, -, rfl⟩ := List.mem_map.mp hf
    trivial
  refine ⟨_, by rw [compact, String.toList_ofList, parse_render hsound]; rfl, ?_⟩
  clear hsound
  induction fields with
  | nil => exact .nil
  | cons f fields ih =>
    exact .cons ⟨Literal.means_reread_ofText f.1, _, rfl, Literal.means_reread_ofText f.2⟩ ih

end Json

namespace Web

open Turnstile.Store

/-! ### Problems -/

namespace Problem

/-- What clients are told: the status, the code and the message. -/
def told (p : Problem) : Nat × String × String := (p.status, p.code, p.message)

/-- **A response is made of what is told**, and so is what stands in a log. -/
theorem response_congr {p q : Problem} (h : p.told = q.told) :
    p.response = q.response ∧ p.text = q.text := by
  obtain ⟨hstatus, hrest⟩ := Prod.mk.inj h
  obtain ⟨hcode, hmessage⟩ := Prod.mk.inj hrest
  unfold response body text
  rw [hstatus, hcode, hmessage]
  exact ⟨rfl, rfl⟩

theorem writtenFields_body (p : Problem) :
    Json.WrittenFields [("code", p.code), ("message", p.message)] p.response.body :=
  Json.writtenFields_compact [("code", p.code), ("message", p.message)]

end Problem

/-! ### How problems come about -/

/-- How a problem came about. -/
inductive Origin where
  | stated (status : Nat) (message code : String)
  | badRequest (message : String)
  | unauthorized (message : String)
  | notFound (resource id : String)
  | validation (message : String)
  | payloadTooLarge (limit : Nat)
  | duplicateRequest (message : String)
  | internal (message : String)
  | unavailable (message : String)
  /-- A source was attached. -/
  | withSource (o : Origin) (source : String)
  /-- Something failed of which nothing more is known. -/
  | fault (detail : String)
  | store (failure : Failure)
  | pageSize (r : Page.SizeRefusal)
  /-- A guarded operation was a duplicate. -/
  | duplicate (key : String)
  /-- A guarded operation came to a problem of its own. -/
  | operation (o : Origin)
  deriving DecidableEq, Repr

namespace Origin

/-- What came of it. -/
def problem : Origin → Problem
  | stated status message code => ⟨status, message, code, none⟩
  | badRequest message => .badRequest message
  | unauthorized message => .unauthorized message
  | notFound resource id => .notFound resource id
  | validation message => .validation message
  | payloadTooLarge limit => .payloadTooLarge limit
  | duplicateRequest message => .duplicateRequest message
  | internal message => .internal message
  | unavailable message => .unavailable message
  | withSource o source => o.problem.withSource source
  | fault detail => .ofFault detail
  | store failure => .ofStore failure
  | pageSize r => .ofPageSize r
  | duplicate key => .ofGuard id (.duplicate key)
  | operation o => .ofGuard id (.operation o.problem)

/-- The origin with all that is not for clients left blank. -/
def blanked : Origin → Origin
  | withSource o _ => withSource o.blanked ""
  | fault _ => fault ""
  | store _ => store (.unavailable "")
  | duplicate _ => duplicate ""
  | operation o => operation o.blanked
  | o => o

@[simp] theorem told_withSource (o : Origin) (source : String) :
    (withSource o source).problem.told = o.problem.told := rfl

@[simp] theorem told_operation (o : Origin) : (operation o).problem.told = o.problem.told := rfl

/-- **What is not for clients is not told.** -/
theorem told_blanked (o : Origin) : o.blanked.problem.told = o.problem.told := by
  induction o with
  | withSource o source ih => rw [blanked, told_withSource, told_withSource, ih]
  | operation o ih => rw [blanked, told_operation, told_operation, ih]
  | _ => rfl

/-- The origin inside some guarded operations, one inside another. -/
def within (depth : Nat) (o : Origin) : Origin := operation^[depth] o

theorem told_within (depth : Nat) (o : Origin) :
    (o.within depth).problem.told = o.problem.told := by
  induction depth with
  | zero => rfl
  | succ depth ih => rw [within, Function.iterate_succ_apply', told_operation]; exact ih

end Origin

/-- **Problems tell nothing but their status, code and message.** Problems that agree in these have one
response and one text, so whatever else they came from cannot be seen. To be guarded makes no
difference, and a duplicate is one at any depth. The response is JSON that reads back as the code and
the message. -/
theorem tells_nothing_else :
    (∀ p q : Problem, p.status = q.status → p.code = q.code → p.message = q.message →
      p.response = q.response ∧ p.text = q.text) ∧
    (∀ o o' : Origin, o.blanked = o'.blanked →
      o.problem.response = o'.problem.response ∧ o.problem.text = o'.problem.text) ∧
    (∀ (o : Origin) (depth : Nat), (o.within depth).problem.response = o.problem.response ∧
      (o.within depth).problem.text = o.problem.text) ∧
    (∀ (key : String) (depth : Nat), ((Origin.duplicate key).within depth).problem.told =
      (429, "DUPLICATE_REQUEST", "An identical request is already being processed")) ∧
    ∀ p : Problem, p.response.status = p.status ∧
      p.response.contentType = some "application/json" ∧
      Json.WrittenFields [("code", p.code), ("message", p.message)] p.response.body ∧
      p.text = "[" ++ p.code ++ "] " ++ p.message := by
  refine ⟨fun p q hstatus hcode hmessage => ?_, fun o o' h => ?_, fun o depth => ?_,
    fun key depth => ?_, fun p => ⟨rfl, rfl, p.writtenFields_body, ?_⟩⟩
  · exact Problem.response_congr (by rw [Problem.told, Problem.told, hstatus, hcode, hmessage])
  · exact Problem.response_congr (by rw [← o.told_blanked, h, o'.told_blanked])
  · exact Problem.response_congr (o.told_within depth)
  · exact Origin.told_within depth _
  · rfl

/-- A store that refuses and one that is late, behind a guard each, with other sources. -/
theorem tells_nothing_else_lateStore :
    let o := Origin.operation (.withSource (.store (.refused "OOM used 3 of 2 MB")) "pool 7")
    let o' := Origin.operation (.withSource (.store (.timedOut (.ofSeconds 1))) "pool 8")
    o.blanked = o'.blanked ∧ o.problem ≠ o'.problem ∧ o.problem.response = o'.problem.response ∧
      (o.problem.status = o'.problem.status ∧ o.problem.code = o'.problem.code ∧
        o.problem.message = o'.problem.message) ∧ o.problem.text = o'.problem.text := by
  intro o o'
  obtain ⟨hparts, horigins, -⟩ := tells_nothing_else
  have hsame : o.blanked = o'.blanked := rfl
  exact ⟨hsame, by decide, (horigins o o' hsame).1, ⟨rfl, rfl, rfl⟩, (hparts _ _ rfl rfl rfl).2⟩

end Web

end Turnstile
