import Turnstile.Proofs.Key.Families
import Turnstile.Proofs.Shop.Commands

/-! # Components stay in their namespaces

Each component gives commands for keys of one namespace only (`Command.Inside`), invalidations
included: `Operation.inside_of_gives` says which one for each operation of the shop. A command in one
namespace writes no key of another one (`Command.not_writes_of_inside`), so an operation leaves every
entry outside its namespace alone. -/

namespace Turnstile

open Turnstile.Store Turnstile.Time Turnstile.Text

/-! ### Commands in a namespace -/

namespace Store.Command

/-- The command is about keys of the namespace only. -/
def Inside (space : String) : Command → Prop
  | setIfAbsent k _ _ | get k | set k _ _ | incrBy k _ | decrBy k _ | delete k
  | deleteByPrefix k => ∃ name, k = Key.namespaced space name
  | ping => True

/-- **Namespaces are apart.** A command in one namespace writes no key of another. -/
theorem not_writes_of_inside {a b : String} (ha : Key.IsSpace a) (hb : Key.IsSpace b) (hab : a ≠ b)
    {c : Command} (hc : c.Inside a) (name : String) : ¬ c.Writes (Key.namespaced b name) := by
  have hkey : ∀ x, Key.namespaced a x ≠ Key.namespaced b name := fun x h =>
    hab (Key.namespaced_inj ha hb h).1
  rintro (hput | hremove)
  · cases c with
    | setIfAbsent k value lifetime =>
      obtain ⟨x, rfl⟩ := hc
      exact hkey x hput
    | set k value lifetime =>
      obtain ⟨x, rfl⟩ := hc
      exact hkey x hput
    | incrBy k delta =>
      obtain ⟨x, rfl⟩ := hc
      exact hkey x hput
    | decrBy k delta =>
      obtain ⟨x, rfl⟩ := hc
      exact hkey x hput
    | _ => exact hput
  · cases c with
    | delete k =>
      obtain ⟨x, rfl⟩ := hc
      exact hkey x hremove
    | deleteByPrefix stem =>
      obtain ⟨x, rfl⟩ := hc
      exact hab ((Key.beginsWith_namespaced ha hb).mp hremove).1
    | _ => exact hremove

end Store.Command

/-! ### Components -/

theorem Cache.within_readThrough {κ α ε : Type} (c : Cache κ α) (k : κ)
    {load : Program (Except ε (Option α))} (hload : load.Within (Command.Inside c.space)) :
    (c.readThrough k load).Within (Command.Inside c.space) :=
  within_readThrough_of ⟨_, rfl⟩ (fun _ _ => ⟨_, rfl⟩) hload

/-! ### Operations -/

namespace Shop

theorem CacheOperation.inside_of_gives {κ α : Type} {c : Cache κ α} {o : CacheOperation κ α}
    {x : Command} (h : o.Gives c x) : x.Inside c.space := by
  cases o with
  | get k =>
    cases h
    exact ⟨_, rfl⟩
  | set k value lifetime =>
    obtain ⟨text, t, rfl⟩ := h
    exact ⟨_, rfl⟩
  | delete k =>
    cases h
    exact ⟨_, rfl⟩
  | invalidate stem =>
    cases h
    exact ⟨_, rfl⟩
  | readThrough k source =>
    obtain rfl | ⟨text, t, rfl⟩ := h <;> exact ⟨_, rfl⟩

/-- **Counts among products.** A product and the count of its views are kept under different names of
one namespace, so of all that a cache of products does only an invalidation gets at a count. -/
theorem CacheOperation.not_writes_views {α : Type} [Json.ToJson α] [Json.OfJson α] {lifetime : Span}
    {p : UInt64} {o : CacheOperation UInt64 α} {x : Command}
    (hx : o.Gives (Cache.products α lifetime) x)
    (hstem : ∀ stem, o = .invalidate stem → beginsWith stem (Key.viewsName p) = false) :
    ¬ x.Writes (Key.views p) := by
  have hkey : ∀ q, (Cache.products α lifetime).keyFor q ≠ Key.views p := fun q hq =>
    Key.productName_ne_viewsName q p
      (Key.namespaced_inj Key.isSpace_product Key.isSpace_product hq).2
  have hset : ∀ q text t, ¬ (Command.set ((Cache.products α lifetime).keyFor q) text t).Writes
      (Key.views p) := fun q _ _ hw => hkey q (Command.writes_set.mp hw)
  cases o with
  | get k =>
    cases hx
    exact Command.not_writes_get
  | set k value lifetime =>
    obtain ⟨text, t, rfl⟩ := hx
    exact hset k text _
  | delete k =>
    cases hx
    exact fun hw => hkey k (Command.writes_delete.mp hw)
  | invalidate stem =>
    cases hx
    intro hw
    have hbegins := ((Key.beginsWith_namespaced Key.isSpace_product Key.isSpace_product).mp
      (Command.writes_deleteByPrefix.mp hw)).2
    rw [hstem stem rfl] at hbegins
    exact Bool.false_ne_true hbegins
  | readThrough k source =>
    obtain rfl | ⟨text, t, rfl⟩ := hx
    · exact Command.not_writes_get
    · exact hset k text _

namespace Operation

variable {β : Type}

/-- The namespace that an operation is about, where notes are kept in a namespace of their own. -/
def space (notes : String) : Operation β → String
  | acquire _ | guard .. => Key.requestLock
  | countView .. | viewCount _ | resetViews _ | product _ => Key.product
  | saveToken .. | findToken _ | checkToken .. | revokeToken _ | memberToken _ => Key.member
  | invalidateCuration _ | curationPage _ => Key.curation
  | stock _ => "stock"
  | noted _ => notes

/-- **An operation stays in its namespace.** -/
theorem inside_of_gives {t : Lifetimes} {notes : String} {o : Operation β} {x : Command}
    (h : o.Gives (Shop.make t notes) x) : x.Inside (o.space notes) := by
  cases o with
  | acquire key | guard key outcome | countView id delta | viewCount id | resetViews id =>
    cases h
    exact ⟨_, rfl⟩
  | saveToken id token =>
    exact CacheOperation.inside_of_gives (c := Cache.memberTokens t.token) (o := .set id token none) h
  | findToken id | checkToken id presented =>
    exact CacheOperation.inside_of_gives (c := Cache.memberTokens t.token) (o := .get id) h
  | revokeToken id =>
    exact CacheOperation.inside_of_gives (c := Cache.memberTokens t.token) (o := .delete id) h
  | invalidateCuration id =>
    exact CacheOperation.inside_of_gives (c := Cache.curationPages CardPage t.curation)
      (o := .invalidate _) h
  | product o => exact CacheOperation.inside_of_gives (c := (Shop.make t notes).products) h
  | curationPage o => exact CacheOperation.inside_of_gives (c := (Shop.make t notes).curations) h
  | stock o => exact CacheOperation.inside_of_gives (c := (Shop.make t notes).stocks) h
  | memberToken o => exact CacheOperation.inside_of_gives (c := (Shop.make t notes).members) h
  | noted o => exact CacheOperation.inside_of_gives (c := (Shop.make t notes).notes) h

theorem isSpace_space {notes : String} {o : Operation β}
    (h : ∀ o', o = .noted o' → Key.IsSpace notes) : Key.IsSpace (o.space notes) := by
  cases o with
  | noted o => exact h o rfl
  | _ => simp only [space]; decide

theorem space_of_writes {t : Lifetimes} {notes space name : String} {o : Operation β}
    (ho : Key.IsSpace (o.space notes)) (hspace : Key.IsSpace space)
    (h : o.Writes (Shop.make t notes) (Key.namespaced space name)) : o.space notes = space := by
  obtain ⟨x, hx, hw⟩ := h
  by_cases hsame : o.space notes = space
  · exact hsame
  · exact absurd hw (Command.not_writes_of_inside ho hspace hsame (inside_of_gives hx) name)

/-- **Frame.** An operation leaves the entries of all other namespaces alone. -/
theorem find?_run_of_ne {notes other : String} {o : Operation β}
    (hspace : Key.IsSpace (o.space notes)) (hother : Key.IsSpace other) (h : o.space notes ≠ other)
    (t : Lifetimes) (name : String) (b : Bench Entries) :
    (b.run Memory.backend (o.program (Shop.make t notes))).2.store.find?
        (Key.namespaced other name) = b.store.find? (Key.namespaced other name) :=
  find?_run (fun hw => h (space_of_writes hspace hother hw)) b

end Operation

end Shop

end Turnstile
