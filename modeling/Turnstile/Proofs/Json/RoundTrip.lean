import Turnstile.Config
import Turnstile.Proofs.Json.Lawful
import Turnstile.Stock

/-! # Codecs there and back

A codec can lose something on either way: a value may have no text, or not be the value of its text;
and a text may have a value that cannot be written again. `Codec.RoundTrips` rules both out. It holds
of the JSON codec at every lawful type (`Codec.Lawful.roundTrips`), the settings included, whose
sections are records of lawful parts.

Stocks are the exception. A stock has a text only if it is empty (`Stock.encode_eq_ok_iff`), and no
other stock is ever read, so that a stock which was read can still be written again. -/

namespace Turnstile

namespace Json

/-! ### Settings -/

instance : LawfulJson RedisConfig where
  reads c := Fields.Returns.reads
    (.required c.url (.required c.connectTimeoutMillis (.required c.commandTimeoutMillis .done)))
    (by decide) rfl (fun _ => rfl) rfl

instance : LawfulJson IdempotencyConfig where
  reads c := Fields.Returns.reads (.required c.lockSeconds (.required c.maxBodyBytes .done))
    (by decide) rfl (fun _ => rfl) rfl

instance : LawfulJson CacheConfig where
  reads c := Fields.Returns.reads
    (.required c.productSeconds (.required c.curationSeconds (.required c.refreshTokenSeconds .done)))
    (by decide) rfl (fun _ => rfl) rfl

instance : LawfulJson PagingConfig where
  reads c := Fields.Returns.reads (.required c.defaultSize (.required c.maxSize .done)) (by decide)
    rfl (fun _ => rfl) rfl

instance : LawfulJson Config where
  reads c := Fields.Returns.reads
    (.required c.redis (.required c.idempotency (.required c.cache (.required c.paging .done))))
    (by decide) rfl (fun _ => rfl) rfl

end Json

/-! ### Both ways -/

/-- Every value has a text and comes back from it, and every value that comes from some text can be
written again and comes back. -/
structure Codec.RoundTrips {α : Type} (c : Codec α) : Prop where
  decode_encode : ∀ x, ∃ text, c.encode x = .ok text ∧ c.decode text = .ok x
  encode_decode : ∀ text x, c.decode text = .ok x →
    ∃ again, c.encode x = .ok again ∧ c.decode again = .ok x

theorem Codec.Lawful.roundTrips {α : Type} {c : Codec α} (h : c.Lawful) : c.RoundTrips where
  decode_encode := h
  encode_decode _ x _ := h x

open Json

namespace Stock

theorem eq_empty_iff {s : Stock} : s = .empty ↔ s.toList = [] := by
  cases s
  simp [empty]

/-- Pairs are no names, so only a stock without counts has a text. -/
theorem encode_eq_ok_iff {s : Stock} {text : String} :
    (Codec.json Stock).encode s = .ok text ↔ s = .empty ∧ text = "\x7b\x7d" := by
  have hwrite : toJson? s = if s.toList.isEmpty then some (record []) else none := rfl
  have htext : (record []).compact = "\x7b\x7d" := by decide
  unfold Codec.json
  dsimp only
  rw [hwrite, eq_empty_iff]
  cases hs : s.toList with
  | nil => simp [htext, eq_comm]
  | cons p ps => simp

theorem eq_empty_of_ofJson? {j : Json} {s : Stock} (h : ofJson? j = some s) : s = .empty := by
  unfold ofJson? instOfJsonStock at h
  dsimp only at h
  split at h
  · exact (Option.some.inj h).symm
  · cases h

theorem eq_empty_of_decode {text : String} {s : Stock}
    (h : (Codec.json Stock).decode text = .ok s) : s = .empty := by
  unfold Codec.json at h
  dsimp only at h
  split at h
  · next x hx =>
    obtain ⟨j, -, hj⟩ := Option.bind_eq_some_iff.mp hx
    rw [← Except.ok.inj h]
    exact eq_empty_of_ofJson? hj
  · cases h

theorem decode_empty : (Codec.json Stock).decode "\x7b\x7d" = .ok .empty := by
  rfl

end Stock

/-- **Nothing is lost in the store.** Products, pages of cards and of ids, texts and settings come
back from the texts that they are kept as, and so do values that were read from any other text. A
stock is kept if and only if it is empty. A raw text is kept as it is. -/
theorem Codec.round_trips :
    (Codec.json ProductDetail).RoundTrips ∧
      (Codec.json CardPage).RoundTrips ∧
      (Codec.json (Page UInt64 UInt64)).RoundTrips ∧
      (Codec.json String).RoundTrips ∧
      (Codec.json Config).RoundTrips ∧
      (∀ s : Stock, (∃ text, (Codec.json Stock).encode s = .ok text) ↔ s = .empty) ∧
      (∀ (s : Stock) (text : String), (Codec.json Stock).encode s = .ok text →
        (Codec.json Stock).decode text = .ok s) ∧
      (∀ (text : String) (s : Stock), (Codec.json Stock).decode text = .ok s →
        ∃ again, (Codec.json Stock).encode s = .ok again ∧
          (Codec.json Stock).decode again = .ok s) ∧
      Codec.raw.RoundTrips ∧
      (∀ text : String, ∃ value, Codec.raw.decode text = .ok value ∧
        Codec.raw.encode value = .ok text) := by
  refine ⟨(lawful_json _).roundTrips, (lawful_json _).roundTrips, (lawful_json _).roundTrips,
    (lawful_json _).roundTrips, (lawful_json _).roundTrips, fun s => ?_, fun s text h => ?_,
    fun text s h => ?_, lawful_raw.roundTrips, fun text => ⟨text, rfl, rfl⟩⟩
  · constructor
    · rintro ⟨text, h⟩
      exact (Stock.encode_eq_ok_iff.mp h).1
    · intro h
      exact ⟨_, Stock.encode_eq_ok_iff.mpr ⟨h, rfl⟩⟩
  · obtain ⟨rfl, rfl⟩ := Stock.encode_eq_ok_iff.mp h
    exact Stock.decode_empty
  · obtain rfl := Stock.eq_empty_of_decode h
    exact ⟨_, Stock.encode_eq_ok_iff.mpr ⟨rfl, rfl⟩, Stock.decode_empty⟩

/-- A product that another writer kept, with its fields in another order, one field more, white
space, and a name in escapes. -/
def foreignProduct : String :=
  "\x7b \"price\" : 12, \"tags\": [1.5e3, null], \"name\": \"\\u00e9\\ud83d\\ude00\\\"\", \"id\": 7 \x7d"

theorem Codec.round_trips_foreignProduct :
    (Codec.json ProductDetail).decode foreignProduct = .ok ⟨7, "é😀\"", 12⟩ ∧
      ∃ again, (Codec.json ProductDetail).encode ⟨7, "é😀\"", 12⟩ = .ok again ∧
        (Codec.json ProductDetail).decode again = .ok ⟨7, "é😀\"", 12⟩ := by
  have hread : (Codec.json ProductDetail).decode foreignProduct = .ok ⟨7, "é😀\"", 12⟩ := by rfl
  exact ⟨hread, round_trips.1.encode_decode _ _ hread⟩

end Turnstile
