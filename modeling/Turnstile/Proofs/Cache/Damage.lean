import Turnstile.Proofs.Cache.Bench
import Turnstile.Proofs.Json.Cuts
import Turnstile.Proofs.Json.RoundTrip

/-! # Damaged entries

An entry may be cut off at any place, or something may be written behind it. In neither case does the
codec take it for a value (`Codec.NoticesDamage.decode_damaged`), and a cache that comes upon it
answers a miss (`Cache.run_get_of_error`). White space behind an entry is no damage.

What the types need for that is little (`Json.Closed`): they read what they have written, and they
read no number. An entry of theirs is then the text of a tree that is closed, so that no text goes on
from it, and it goes on from no other one. -/

namespace Turnstile

open Turnstile.Json Turnstile.Store

/-- The entry is the text cut off somewhere, or the text with more behind it than white space. -/
def Damaged (text entry : String) : Prop :=
  (∃ rest, rest ≠ "" ∧ text = entry ++ rest) ∨
    ∃ more : String, ¬ Spaces more.toList ∧ entry = text ++ more

/-! ### What a codec refuses -/

namespace Json

variable {α : Type} [ToJson α] [OfJson α]

/-- The type reads what it has written, and reads no number. -/
structure Closed (α : Type) [ToJson α] [OfJson α] : Prop where
  reads : ∀ {x : α} {j : Json}, toJson? x = some j → j.Sound ∧ ofJson? j.reread = some x
  ofJson?_number : ∀ lexeme, (ofJson? (.number lexeme) : Option α) = none

theorem closed_of_lawful [LawfulJson α]
    (hnumber : ∀ lexeme, (ofJson? (.number lexeme) : Option α) = none) : Closed α where
  reads {x j} hj := by
    obtain ⟨k, hk, hsound, hx⟩ := LawfulJson.reads x
    obtain rfl := Option.some.inj (hk.symm.trans hj)
    exact ⟨hsound, hx⟩
  ofJson?_number := hnumber

theorem closed_stock : Closed Stock where
  reads {s j} hj := by
    have hencode : (Codec.json Stock).encode s = .ok j.compact :=
      Codec.encode_json_eq_ok_iff.mpr ⟨j, hj, rfl⟩
    obtain ⟨rfl, -⟩ := Stock.encode_eq_ok_iff.mp hencode
    obtain rfl := Option.some.inj hj
    exact ⟨trivial, rfl⟩
  ofJson?_number _ := rfl

namespace Closed

variable (h : Closed α) {x y : α} {j : Json} {lexeme cs : List Char}
include h

theorem ne_number_of_read (hj : ofJson? j = some x) : j ≠ .number lexeme := by
  rintro rfl
  rw [h.ofJson?_number] at hj
  cases hj

theorem ne_number_of_written (hj : toJson? x = some j) : j ≠ .number lexeme := by
  rintro rfl
  exact h.ne_number_of_read (h.reads hj).2 rfl

theorem parse_append_eq_some_iff {k : Json} (hj : toJson? x = some j) :
    parse (j.render ++ cs) = some k ↔ Spaces cs ∧ k = j.reread :=
  have hparse := parse_render (h.reads hj).1
  Json.parse_append_eq_some_iff hparse fun _ => h.ne_number_of_read (h.reads hj).2

end Closed

end Json

namespace Codec

variable {α : Type}

/-- A damaged entry has no value, and white space behind one changes nothing. -/
structure NoticesDamage (c : Codec α) : Prop where
  decode_damaged : ∀ {x : α} {text entry : String}, c.encode x = .ok text → Damaged text entry →
    ∃ failure, c.decode entry = .error failure
  decode_spaces : ∀ {x : α} {text more : String}, c.encode x = .ok text → Spaces more.toList →
    c.decode (text ++ more) = .ok x

variable [ToJson α] [OfJson α]

theorem not_damaged_of_decode (h : Closed α) {x y : α} {text entry : String}
    (hencode : (json α).encode x = .ok text) (hdecode : (json α).decode entry = .ok y) :
    ¬ Damaged text entry := by
  obtain ⟨j, hj, rfl⟩ := encode_json_eq_ok_iff.mp hencode
  obtain ⟨k, hk, hy⟩ := decode_json_eq_ok_iff.mp hdecode
  have htext : j.compact.toList = j.render := String.toList_ofList
  rintro (⟨rest, hrest, hcut⟩ | ⟨more, hmore, rfl⟩)
  · rw [hcut, String.toList_append] at htext
    have hnil := eq_nil_of_parse_of_render (h.reads hj).1 (fun _ => h.ne_number_of_written hj)
      htext.symm hk fun _ => h.ne_number_of_read hy
    exact hrest (String.toList_eq_nil_iff.mp hnil)
  · rw [String.toList_append, htext] at hk
    exact hmore ((h.parse_append_eq_some_iff hj).mp hk).1

/-- **Damage is noticed** by types that read what they have written and read no number. -/
theorem noticesDamage_json (h : Closed α) : (json α).NoticesDamage where
  decode_damaged {x text entry} hencode hdamaged := by
    cases hdecode : (json α).decode entry with
    | error failure => exact ⟨failure, rfl⟩
    | ok y => exact absurd hdamaged (not_damaged_of_decode h hencode hdecode)
  decode_spaces {x text more} hencode hmore := by
    obtain ⟨j, hj, rfl⟩ := encode_json_eq_ok_iff.mp hencode
    refine decode_json_eq_ok_iff.mpr ⟨j.reread, ?_, (h.reads hj).2⟩
    rw [String.toList_append, compact, String.toList_ofList]
    exact (h.parse_append_eq_some_iff hj).mpr ⟨hmore, rfl⟩

end Codec

/-! ### What a cache answers -/

namespace Cache

variable {κ α σ : Type}

theorem run_get_of_error {c : Cache κ α} {k : κ} {store : Backend σ} {b : Bench σ} {entry : String}
    {failure : Codec.Failure}
    (hentry : (Bench.perform store (.get (c.keyFor k)) b).1 = .ok (some entry))
    (hdecode : c.codec.decode entry = .error failure) :
    b.run store (c.get k) = (none, ((Bench.perform store (.get (c.keyFor k)) b).2.note
      (.counted (.cacheDecodeErrors c.space))).note (.counted (.cacheMisses c.space))) := by
  unfold get
  rw [Bench.run_ask, hentry]
  dsimp only
  rw [hdecode]
  rfl

/-- Whatever the key and the store, a damaged entry is a miss. -/
def MissesDamaged (c : Cache κ α) : Prop :=
  ∀ {σ : Type} (k : κ) (store : Backend σ) (b : Bench σ) {x : α} {text entry : String},
    c.codec.encode x = .ok text → Damaged text entry →
    (Bench.perform store (.get (c.keyFor k)) b).1 = .ok (some entry) →
    b.run store (c.get k) = (none, ((Bench.perform store (.get (c.keyFor k)) b).2.note
      (.counted (.cacheDecodeErrors c.space))).note (.counted (.cacheMisses c.space)))

theorem missesDamaged {c : Cache κ α} (h : c.codec.NoticesDamage) : c.MissesDamaged := by
  intro σ k store b x text entry hencode hdamaged hentry
  obtain ⟨failure, hdecode⟩ := h.decode_damaged hencode hdamaged
  exact run_get_of_error hentry hdecode

end Cache

/-- **Damaged entries are never mistaken for values.** Products, pages of cards and of ids, texts,
settings and stocks: what is left of an entry of theirs that was cut off anywhere has no value, nor
has an entry with anything behind it but white space; and a cache, of whatever keys, that comes upon
it answers a miss. -/
theorem Codec.noticesDamage :
    ((Codec.json ProductDetail).NoticesDamage ∧
      (Codec.json CardPage).NoticesDamage ∧
      (Codec.json (Page UInt64 UInt64)).NoticesDamage ∧
      (Codec.json String).NoticesDamage ∧
      (Codec.json Config).NoticesDamage ∧
      (Codec.json Stock).NoticesDamage) ∧
    ∀ {κ α : Type} (c : Cache κ α), c.codec.NoticesDamage → c.MissesDamaged := by
  have hlawful : ∀ {α : Type} [ToJson α] [OfJson α] [LawfulJson α],
      (∀ lexeme, (ofJson? (.number lexeme) : Option α) = none) → (Codec.json α).NoticesDamage :=
    fun hnumber => noticesDamage_json (closed_of_lawful hnumber)
  exact ⟨⟨hlawful fun _ => rfl, hlawful fun _ => rfl, hlawful fun _ => rfl, hlawful fun _ => rfl,
    hlawful fun _ => rfl, noticesDamage_json closed_stock⟩, fun _ h => Cache.missesDamaged h⟩

/-- The entry of a product whose name needs an escape. -/
def wholeEntry : String := "\x7b\"id\":1,\"name\":\"red\\u0001blue\",\"price\":2\x7d"

/-- What is left of it if writing stopped inside the escape. -/
def tornEntry : String := "\x7b\"id\":1,\"name\":\"red\\u00"

/-- A bench with the torn entry in the product's place. -/
def tornBench : Bench Entries where
  store := Entries.empty.put "product:1" ⟨tornEntry, none⟩

theorem Codec.noticesDamage_tornEntry :
    (Codec.json ProductDetail).encode ⟨1, "red\x01blue", 2⟩ = .ok wholeEntry ∧
      Damaged wholeEntry tornEntry ∧
      (∃ failure, (Codec.json ProductDetail).decode tornEntry = .error failure) ∧
      (tornBench.run Memory.backend ((Cache.products ProductDetail (.ofSeconds 3600)).get 1)).1 =
        none := by
  have hencode : (Codec.json ProductDetail).encode ⟨1, "red\x01blue", 2⟩ = .ok wholeEntry := by
    decide +kernel
  have hdamaged : Damaged wholeEntry tornEntry :=
    Or.inl ⟨"01blue\",\"price\":2\x7d", by decide, by decide⟩
  obtain ⟨⟨hproduct, -⟩, hcache⟩ := noticesDamage
  refine ⟨hencode, hdamaged, hproduct.decode_damaged hencode hdamaged, ?_⟩
  rw [hcache (Cache.products ProductDetail (.ofSeconds 3600)) hproduct 1 Memory.backend tornBench
    hencode hdamaged rfl]

end Turnstile
