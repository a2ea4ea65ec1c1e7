import Turnstile.Config
import Turnstile.Proofs.Json.RoundTrip
import Turnstile.Proofs.Json.Schema

/-! # Entries of other versions

An entry may have been written by another version of the program, or by another program: with its
fields in another order, with fields that are unknown here, with other white space, with escapes where
there need be none. It is decoded all the same, to the value that it spells (`Codec.FollowsSchema`),
and an entry that misses a field or has one twice is never decoded.

That is put together from two halves. The texts of a tree are known from the grammar
(`parse_eq_some_iff`), and the trees of a value from the schema of its type; here are the schemas of
what the shop keeps, each a list of fields. -/

namespace Turnstile

open Turnstile.Json

namespace Json

/-! ### The records of the shop -/

instance : Schema ProductCard :=
  .record [.required "id" ProductCard.id, .required "name" ProductCard.name]

instance : LawfulSchema ProductCard :=
  Fields.Follows.lawfulSchema (.required (.required .done)) (fun _ => rfl) (fun _ => rfl)
    fun _ => rfl

instance : Schema ProductDetail :=
  .record [.required "id" ProductDetail.id, .required "name" ProductDetail.name,
    .required "price" ProductDetail.price]

instance : LawfulSchema ProductDetail :=
  Fields.Follows.lawfulSchema (.required (.required (.required .done))) (fun _ => rfl)
    (fun _ => rfl) fun _ => rfl

section pages

variable {α ι : Type} [Schema α] [Schema ι]

instance : Schema (Page α ι) :=
  .record [.required "content" Page.content, .required "size" Page.size,
    .required "hasNext" Page.hasNext, .optional "nextCursorId" Page.next]

instance [OfJson α] [OfJson ι] [LawfulSchema α] [LawfulSchema (Option ι)] :
    LawfulSchema (Page α ι) :=
  Fields.Follows.lawfulSchema (.required (.required (.required (.optional .done)))) (fun _ => rfl)
    (fun _ => rfl) fun _ => rfl

end pages

instance : Schema RedisConfig :=
  .record [.required "url" RedisConfig.url,
    .required "connect_timeout_ms" RedisConfig.connectTimeoutMillis,
    .required "command_timeout_ms" RedisConfig.commandTimeoutMillis]

instance : LawfulSchema RedisConfig :=
  Fields.Follows.lawfulSchema (.required (.required (.required .done))) (fun _ => rfl)
    (fun _ => rfl) fun _ => rfl

instance : Schema IdempotencyConfig :=
  .record [.required "lock_ttl_secs" IdempotencyConfig.lockSeconds,
    .required "max_body_bytes" IdempotencyConfig.maxBodyBytes]

instance : LawfulSchema IdempotencyConfig :=
  Fields.Follows.lawfulSchema (.required (.required .done)) (fun _ => rfl) (fun _ => rfl)
    fun _ => rfl

instance : Schema CacheConfig :=
  .record [.required "product_ttl_secs" CacheConfig.productSeconds,
    .required "curation_ttl_secs" CacheConfig.curationSeconds,
    .required "refresh_token_ttl_secs" CacheConfig.refreshTokenSeconds]

instance : LawfulSchema CacheConfig :=
  Fields.Follows.lawfulSchema (.required (.required (.required .done))) (fun _ => rfl)
    (fun _ => rfl) fun _ => rfl

instance : Schema PagingConfig :=
  .record [.required "default_size" PagingConfig.defaultSize,
    .required "max_size" PagingConfig.maxSize]

instance : LawfulSchema PagingConfig :=
  Fields.Follows.lawfulSchema (.required (.required .done)) (fun _ => rfl) (fun _ => rfl)
    fun _ => rfl

instance : Schema Config :=
  .record [.required "redis" Config.redis, .required "idempotency" Config.idempotency,
    .required "cache" Config.cache, .required "pagination" Config.paging]

instance : LawfulSchema Config :=
  Fields.Follows.lawfulSchema (.required (.required (.required (.required .done)))) (fun _ => rfl)
    (fun _ => rfl) fun _ => rfl

end Json

/-! ### What is decoded -/

namespace Codec

/-- The texts of a value are the texts of its trees, and no text of a spoilt tree has a value. -/
structure FollowsSchema {α : Type} [Schema α] (c : Codec α) : Prop where
  decode_eq_ok_iff : ∀ {text : String} {x : α},
    c.decode text = .ok x ↔ ∃ j, Written j text.toList ∧ Holds j x
  decode_spoilt : ∀ {text : String} {j : Json}, Written j text.toList → Schema.Spoilt α j →
    ∃ failure, c.decode text = .error failure

theorem followsSchema_json (α : Type) [ToJson α] [OfJson α] [Schema α] [LawfulSchema α] :
    (json α).FollowsSchema := by
  have hok : ∀ {text : String} {x : α}, (json α).decode text = .ok x ↔
      ∃ j, Written j text.toList ∧ Holds j x := by
    intro text x
    rw [decode_json_eq_ok_iff]
    simp only [parse_eq_some_iff, LawfulSchema.reads_iff]
  refine ⟨hok, fun {text j} hwritten hspoilt => ?_⟩
  cases hdecode : (json α).decode text with
  | error failure => exact ⟨failure, rfl⟩
  | ok x =>
    obtain ⟨k, hk, hx⟩ := hok.mp hdecode
    -- A text has one tree.
    obtain rfl : j = k :=
      Option.some.inj ((parse_eq_some_iff.mpr hwritten).symm.trans (parse_eq_some_iff.mpr hk))
    exact absurd hspoilt (LawfulSchema.not_spoilt hx)

/-- **Entries of other versions decode to the same values.** A product, a page of cards or of ids, and
the settings are decoded from every text of each of their trees and from no other text, never from one
in which an object misses a field or gives one twice. -/
theorem followsSchema :
    (json ProductDetail).FollowsSchema ∧ (json CardPage).FollowsSchema ∧
      (json (Page UInt64 UInt64)).FollowsSchema ∧ (json Config).FollowsSchema :=
  ⟨followsSchema_json _, followsSchema_json _, followsSchema_json _, followsSchema_json _⟩

/-- A page that another writer kept: fields in another order and one more, no cursor, a card as an
array, and names in escapes. -/
def foreignPage : String :=
  "\x7b \"size\" : 2, \"more\": [[\x7b\"id\": \"\\ud800\"\x7d], 1e999],\n\"hasNext\":false, \"content\": [
    [1, \"a\\/b\"], \x7b\"name\": \"\\ud83d\\ude00\", \"\\u0069d\": 2, \"Id\": 3\x7d ] \x7d"

/-- A page with a card that has two ids. -/
def spoiltPage : Json :=
  record [("content", .array [record [("id", ofNat 1), ("name", ofText "a"), ("id", ofNat 1)]]),
    ("size", ofNat 1), ("hasNext", .bool false)]

theorem followsSchema_foreignPage :
    (json CardPage).decode foreignPage = .ok ⟨[⟨1, "a/b"⟩, ⟨2, "😀"⟩], 2, false, none⟩ ∧
      ∃ failure, (json CardPage).decode spoiltPage.compact = .error failure := by
  obtain ⟨-, hpages, -⟩ := followsSchema
  constructor
  · have hread : (parse foreignPage.toList).bind ofJson? =
        some (⟨[⟨1, "a/b"⟩, ⟨2, "😀"⟩], 2, false, none⟩ : CardPage) := by decide +kernel
    obtain ⟨j, hj, hvalue⟩ := Option.bind_eq_some_iff.mp hread
    exact hpages.decode_eq_ok_iff.mpr
      ⟨j, parse_eq_some_iff.mp hj, LawfulSchema.reads_iff.mp hvalue⟩
  · have hwritten : Written spoiltPage spoiltPage.compact.toList := parse_eq_some_iff.mp rfl
    have hmeans : ∀ s, (Literal.ofText s).Means s := fun s =>
      Literal.text?_eq_some_iff.mp (Literal.text?_ofText s)
    refine hpages.decode_spoilt hwritten ⟨_, .head _, Or.inr (Or.inr ⟨_, _, .head _, hmeans _, ?_⟩)⟩
    refine ⟨_, .head _, _, .head _, Or.inr (Or.inl ?_)⟩
    exact ⟨[], _, _, [(.ofText "name", ofText "a")], _, _, [], rfl, hmeans _, hmeans _⟩

end Codec

end Turnstile
