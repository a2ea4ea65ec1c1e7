import Turnstile.Proofs.Store.Bench
import Turnstile.Shop.Operation

/-! # The commands of an operation

Which commands an operation of the shop can give is known before it is carried out
(`Operation.Gives`, `Operation.within_gives`): it may give fewer, as the store answers, but no others.
What is to be known of all its commands is read off from there, so the programs themselves are opened
only here. In particular an operation leaves a key's entry alone if none of its commands writes the
key (`Operation.find?_run`). -/

namespace Turnstile

open Turnstile.Store Turnstile.Time Turnstile.Text

/-! ### Caches and the gate -/

namespace Cache

variable {κ α ε : Type} {c : Cache κ α} {k : κ} {P : Command → Prop}

theorem within_get_of (h : P (.get (c.keyFor k))) : (c.get k).Within P := by
  refine Program.within_bind (Program.within_command h) fun r => ?_
  split
  · split
    · exact Program.within_bind (Program.within_count _) fun _ => Program.within_pure _
    · exact Program.within_bind (Program.within_count _) fun _ =>
        Program.within_bind (Program.within_count _) fun _ => Program.within_pure _
  · exact Program.within_bind (Program.within_count _) fun _ => Program.within_pure _
  · exact Program.within_bind (Program.within_count _) fun _ => Program.within_pure _

theorem within_set_of (h : ∀ text t, P (.set (c.keyFor k) text (some t))) (value : α)
    (lifetime : Option Span) : (c.set k value lifetime).Within P := by
  unfold set
  split
  · refine Program.within_bind (Program.within_command (h _ _)) fun r => ?_
    split
    · exact Program.within_pure _
    · exact Program.within_count _
  · exact Program.within_count _

theorem within_delete_of (h : P (.delete (c.keyFor k))) : (c.delete k).Within P := by
  refine Program.within_bind (Program.within_command h) fun r => ?_
  split <;> exact Program.within_pure _

theorem within_invalidate_of {stem : String}
    (h : P (.deleteByPrefix (Key.namespaced c.space stem))) : (c.invalidate stem).Within P := by
  refine Program.within_bind (Program.within_command h) fun r => ?_
  split <;> exact Program.within_pure _

theorem within_readThrough_of (hget : P (.get (c.keyFor k)))
    (hset : ∀ text t, P (.set (c.keyFor k) text (some t)))
    {load : Program (Except ε (Option α))} (hload : load.Within P) :
    (c.readThrough k load).Within P := by
  refine Program.within_bind (within_get_of hget) fun found => ?_
  split
  · exact Program.within_pure _
  · refine Program.within_bind hload fun loaded => ?_
    split
    · exact Program.within_pure _
    · exact Program.within_pure _
    · exact Program.within_bind (within_set_of hset _ none) fun _ => Program.within_pure _

end Cache

theorem Gate.within_tryAcquire_of {P : Command → Prop} {g : Gate} {key : RequestKey}
    (h : P (.setIfAbsent key.storeKey "1" g.lifetime)) : (g.tryAcquire key).Within P := by
  refine Program.within_bind (Program.within_command h) fun r => ?_
  split
  · exact Program.within_bind (Program.within_count _) fun _ => Program.within_pure _
  · exact Program.within_bind (Program.within_count _) fun _ => Program.within_pure _
  · exact Program.within_bind (Program.within_count _) fun _ =>
      Program.within_bind (Program.within_count _) fun _ => Program.within_pure _

/-! ### Operations -/

namespace Shop

/-- The operation of the cache may give the command. -/
def CacheOperation.Gives {κ α : Type} (c : Cache κ α) : CacheOperation κ α → Command → Prop
  | get k, x => x = .get (c.keyFor k)
  | set k .., x => ∃ text t, x = .set (c.keyFor k) text (some t)
  | delete k, x => x = .delete (c.keyFor k)
  | invalidate stem, x => x = .deleteByPrefix (Key.namespaced c.space stem)
  | readThrough k _, x => x = .get (c.keyFor k) ∨ ∃ text t, x = .set (c.keyFor k) text (some t)

theorem CacheOperation.within_gives {κ α : Type} (c : Cache κ α) (o : CacheOperation κ α) :
    (o.program c).Within (o.Gives c) := by
  cases o with
  | get k => exact Cache.within_get_of rfl
  | set k value lifetime => exact Cache.within_set_of (fun text t => ⟨text, t, rfl⟩) value lifetime
  | delete k => exact Cache.within_delete_of rfl
  | invalidate stem => exact Cache.within_invalidate_of rfl
  | readThrough k source =>
    exact Cache.within_readThrough_of (Or.inl rfl) (fun text t => Or.inr ⟨text, t, rfl⟩)
      (Program.within_call source)

namespace Operation

variable {β : Type} {s : Shop} {o : Operation β}

/-- The operation may give the command. -/
def Gives (s : Shop) : Operation β → Command → Prop
  | acquire key, x | guard key _, x => x = .setIfAbsent key.storeKey "1" s.gate.lifetime
  | countView id delta, x => x = .incrBy (Key.views id) delta
  | viewCount id, x => x = .get (Key.views id)
  | resetViews id, x => x = .delete (Key.views id)
  | saveToken id token, x => (CacheOperation.set id token none).Gives s.tokens.cache x
  | findToken id, x | checkToken id _, x => (CacheOperation.get id).Gives s.tokens.cache x
  | revokeToken id, x => (CacheOperation.delete id).Gives s.tokens.cache x
  | invalidateCuration id, x =>
    (CacheOperation.invalidate (Key.CurationPage.stem id)).Gives s.curations x
  | product o, x => o.Gives s.products x
  | curationPage o, x => o.Gives s.curations x
  | stock o, x => o.Gives s.stocks x
  | memberToken o, x => o.Gives s.members x
  | noted o, x => o.Gives s.notes x

theorem within_gives (s : Shop) (o : Operation β) : (o.program s).Within (o.Gives s) := by
  cases o with
  | acquire key => exact Gate.within_tryAcquire_of rfl
  | guard key outcome =>
    refine Program.within_bind (Gate.within_tryAcquire_of rfl) fun free => ?_
    split
    · exact Program.within_bind (Program.within_call outcome) fun _ => Program.within_pure _
    · exact Program.within_pure _
  | countView id delta =>
    refine Program.within_bind (Program.within_command rfl) fun r => ?_
    split <;> exact Program.within_bind (Program.within_count _) fun _ => Program.within_pure _
  | viewCount id =>
    refine Program.within_bind (Program.within_command rfl) fun r => ?_
    split <;> exact Program.within_pure _
  | resetViews id =>
    refine Program.within_bind (Program.within_command rfl) fun r => ?_
    split <;> exact Program.within_pure _
  | saveToken id token =>
    exact CacheOperation.within_gives s.tokens.cache (.set id token none)
  | findToken id => exact CacheOperation.within_gives s.tokens.cache (.get id)
  | checkToken id presented =>
    exact Program.within_bind (CacheOperation.within_gives s.tokens.cache (.get id)) fun _ =>
      Program.within_pure _
  | revokeToken id => exact CacheOperation.within_gives s.tokens.cache (.delete id)
  | invalidateCuration id => exact CacheOperation.within_gives s.curations (.invalidate _)
  | product o => exact o.within_gives s.products
  | curationPage o => exact o.within_gives s.curations
  | stock o => exact o.within_gives s.stocks
  | memberToken o => exact o.within_gives s.members
  | noted o => exact o.within_gives s.notes

/-- One of the operation's commands may change what the key holds. -/
def Writes (s : Shop) (o : Operation β) (key : String) : Prop := ∃ x, o.Gives s x ∧ x.Writes key

theorem find?_run {key : String} (h : ¬ o.Writes s key) (b : Bench Entries) :
    (b.run Memory.backend (o.program s)).2.store.find? key = b.store.find? key :=
  Bench.find?_run ((o.within_gives s).mono fun x hx hw => h ⟨x, hx, hw⟩) b

end Operation

end Shop

end Turnstile
