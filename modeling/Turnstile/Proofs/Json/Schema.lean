import Mathlib.Data.List.Forall2
import Mathlib.Tactic.SplitIfs
import Turnstile.Json.Record
import Turnstile.Proofs.Json.Literals
import Turnstile.Proofs.Text.Decimal

/-! # Schemas

Which trees a typed value may have, without a word on how it is read. An object gives a name once,
twice or not at all (`GivesOnce`, `GivesTwice`, `Omits`); a record is an object that gives each of its
fields once among any others, or an array of the fields (`Record.Holds`). It is spoilt if a field is
missing or given twice, in itself or further inside (`Record.Spoilt`).

What an object gives for the names of a record are its slots (`slots?_object_eq_some_iff`), and a
record has its value if each slot fits its field (`Record.holds_iff`). Fields that are read as a schema has
them (`Fields.Follows`) therefore make a type that is read by its schema; so are plain values, options
and lists (`LawfulSchema`). -/

namespace Turnstile.Json

open Turnstile.Text

/-! ### What objects give -/

section fields

variable (fields : List (Literal × Json)) (name : String)

/-- All names stand for texts. -/
def Readable : Prop := ∀ f ∈ fields, ∃ name, f.1.Means name

/-- No field has the name. -/
def Omits : Prop := ∀ f ∈ fields, ¬ f.1.Means name

/-- One field has the name, and this value. -/
def GivesOnce (j : Json) : Prop :=
  ∃ before n after, fields = before ++ (n, j) :: after ∧ n.Means name ∧ Omits (before ++ after) name

/-- At least two fields have the name. -/
def GivesTwice : Prop :=
  ∃ before m j between n k after, fields = before ++ (m, j) :: (between ++ (n, k) :: after) ∧
    m.Means name ∧ n.Means name

/-- The values under the name. -/
def valuesOf : List Json := (fields.filter fun f => f.1.text? = some name).map Prod.snd

end fields

section fields

variable {fields : List (Literal × Json)} {name : String} {j : Json}

theorem valuesOf_append (fs gs : List (Literal × Json)) (name : String) :
    valuesOf (fs ++ gs) name = valuesOf fs name ++ valuesOf gs name := by
  unfold valuesOf
  rw [List.filter_append, List.map_append]

theorem valuesOf_cons_of_means {n : Literal} (h : n.Means name) (j : Json)
    (fs : List (Literal × Json)) : valuesOf ((n, j) :: fs) name = j :: valuesOf fs name := by
  have hn : decide (n.text? = some name) = true :=
    decide_eq_true (Literal.text?_eq_some_iff.mpr h)
  unfold valuesOf
  rw [List.filter_cons, if_pos hn, List.map_cons]

theorem valuesOf_eq_nil_iff : valuesOf fields name = [] ↔ Omits fields name := by
  unfold valuesOf Omits
  rw [List.map_eq_nil_iff, List.filter_eq_nil_iff]
  refine forall₂_congr fun f _ => ?_
  rw [decide_eq_true_iff, Literal.text?_eq_some_iff]

theorem valuesOf_eq_singleton_iff : valuesOf fields name = [j] ↔ GivesOnce fields name j := by
  constructor
  · intro h
    unfold valuesOf at h
    obtain ⟨⟨n, k⟩, hfilter, hk⟩ := List.map_eq_singleton_iff.mp h
    obtain rfl : k = j := hk
    obtain ⟨before, after, rfl, hbefore, hn, hafter⟩ := List.filter_eq_cons_iff.mp hfilter
    rw [decide_eq_true_iff, Literal.text?_eq_some_iff] at hn
    refine ⟨before, n, after, rfl, hn, ?_⟩
    rw [← valuesOf_eq_nil_iff, valuesOf_append, List.append_eq_nil_iff]
    unfold valuesOf
    rw [hafter, List.filter_eq_nil_iff.mpr hbefore]
    exact ⟨rfl, rfl⟩
  · rintro ⟨before, n, after, rfl, hn, homits⟩
    rw [← valuesOf_eq_nil_iff, valuesOf_append, List.append_eq_nil_iff] at homits
    rw [valuesOf_append, valuesOf_cons_of_means hn, homits.1, homits.2]
    rfl

theorem valuesOf_of_givesTwice (h : GivesTwice fields name) :
    ∃ j k rest, valuesOf fields name = j :: k :: rest := by
  obtain ⟨before, m, j, between, n, k, after, rfl, hm, hn⟩ := h
  rw [valuesOf_append, valuesOf_cons_of_means hm, valuesOf_append, valuesOf_cons_of_means hn]
  cases valuesOf before name with
  | nil =>
    cases valuesOf between name with
    | nil => exact ⟨_, _, _, rfl⟩
    | cons => exact ⟨_, _, _, rfl⟩
  | cons a as =>
    cases as with
    | nil => exact ⟨_, _, _, rfl⟩
    | cons => exact ⟨_, _, _, rfl⟩

theorem mem_valuesOf {n : Literal} (hmem : (n, j) ∈ fields) (hn : n.Means name) :
    j ∈ valuesOf fields name := by
  have hname : decide (n.text? = some name) = true :=
    decide_eq_true (Literal.text?_eq_some_iff.mpr hn)
  exact List.mem_map.mpr ⟨(n, j), List.mem_filter.mpr ⟨hmem, hname⟩, rfl⟩

/-! ### What a record is read from -/

/-- What the fields give for the name is in the slot. -/
def Fills (fields : List (Literal × Json)) (name : String) : Option Json → Prop
  | none => Omits fields name
  | some j => GivesOnce fields name j

theorem fills_iff {slot : Option Json} :
    Fills fields name slot ↔ valuesOf fields name = slot.toList := by
  cases slot with
  | none => exact valuesOf_eq_nil_iff.symm
  | some j => exact valuesOf_eq_singleton_iff.symm

theorem mapM_eq_some_iff {α β : Type} {f : α → Option β} {xs : List α} {ys : List β} :
    xs.mapM f = some ys ↔ List.Forall₂ (fun x y => f x = some y) xs ys := by
  induction xs generalizing ys with
  | nil =>
    rw [List.forall₂_nil_left_iff, List.mapM_nil]
    exact ⟨fun h => (Option.some.inj h).symm, fun h => congrArg some h.symm⟩
  | cons x xs ih =>
    rw [List.forall₂_cons_left_iff, List.mapM_cons]
    constructor
    · intro h
      obtain ⟨y, hy, h⟩ := Option.bind_eq_some_iff.mp h
      obtain ⟨rest, hrest, h⟩ := Option.bind_eq_some_iff.mp h
      exact ⟨y, rest, hy, ih.mp hrest, (Option.some.inj h).symm⟩
    · rintro ⟨y, rest, hy, hrest, rfl⟩
      rw [hy, ih.mpr hrest]
      rfl

theorem named?_cons_eq_some_iff {f : Literal × Json} {named : List (String × Json)} :
    named? (f :: fields) = some named ↔
      ∃ n rest, f.1.Means n ∧ named? fields = some rest ∧ named = (n, f.2) :: rest := by
  unfold named?
  rw [mapM_eq_some_iff, List.forall₂_cons_left_iff]
  simp only [mapM_eq_some_iff, Option.map_eq_some_iff, Literal.text?_eq_some_iff]
  constructor
  · rintro ⟨g, rest, ⟨n, hn, rfl⟩, hrest, rfl⟩
    exact ⟨n, rest, hn, hrest, rfl⟩
  · rintro ⟨n, rest, hn, hrest, rfl⟩
    exact ⟨(n, f.2), rest, ⟨n, hn, rfl⟩, hrest, rfl⟩

theorem exists_named?_iff : (∃ named, named? fields = some named) ↔ Readable fields := by
  induction fields with
  | nil => exact ⟨fun _ => List.forall_mem_nil _, fun _ => ⟨[], rfl⟩⟩
  | cons f fields ih =>
    unfold Readable at ih ⊢
    rw [List.forall_mem_cons, ← ih]
    simp only [named?_cons_eq_some_iff]
    constructor
    · rintro ⟨_, n, rest, hn, hrest, -⟩
      exact ⟨⟨n, hn⟩, rest, hrest⟩
    · rintro ⟨⟨n, hn⟩, rest, hrest⟩
      exact ⟨_, n, rest, hn, hrest, rfl⟩

theorem map_filter_named {named : List (String × Json)} (h : named? fields = some named)
    (name : String) : (named.filter (·.1 = name)).map Prod.snd = valuesOf fields name := by
  induction fields generalizing named with
  | nil =>
    cases h
    rfl
  | cons f fields ih =>
    obtain ⟨n, rest, hn, hrest, rfl⟩ := named?_cons_eq_some_iff.mp h
    unfold valuesOf at ih ⊢
    rw [List.filter_cons, List.filter_cons, Literal.text?_eq_some_iff.mpr hn]
    simp only [decide_eq_true_iff, Option.some.injEq]
    split_ifs
    · rw [List.map_cons, List.map_cons, ih hrest]
    · exact ih hrest

theorem slot?_eq_some_iff {named : List (String × Json)} (h : named? fields = some named)
    {slot : Option Json} : slot? named name = some slot ↔ Fills fields name slot := by
  rw [fills_iff, ← map_filter_named h]
  unfold slot?
  generalize named.filter _ = found
  rcases found with _ | ⟨f, _ | ⟨g, rest⟩⟩ <;> cases slot <;> simp

theorem slots?_object_eq_some_iff {names : List String} {slots : List (Option Json)} :
    slots? names (.object fields) = some slots ↔
      Readable fields ∧ List.Forall₂ (Fills fields) names slots := by
  unfold slots?
  dsimp only
  rw [← exists_named?_iff]
  constructor
  · intro h
    obtain ⟨named, hnamed, h⟩ := Option.bind_eq_some_iff.mp h
    refine ⟨⟨named, hnamed⟩, (mapM_eq_some_iff.mp h).imp fun name slot => ?_⟩
    exact (slot?_eq_some_iff hnamed).mp
  · rintro ⟨⟨named, hnamed⟩, hslots⟩
    refine Option.bind_eq_some_iff.mpr ⟨named, hnamed, mapM_eq_some_iff.mpr ?_⟩
    exact hslots.imp fun name slot => (slot?_eq_some_iff hnamed).mpr

end fields

/-! ### Schemas -/

/-- What the trees of a type look like: which tree is one of a value's, and which is spoilt by an object
in it that lacks a field or gives one twice. -/
class Schema (α : Type) where
  Holds : Json → α → Prop
  Spoilt : Json → Prop

export Schema (Holds)

/-- A field of a record. One that is optional may be left out where `null` would do. -/
structure Field (α : Type) where
  name : String
  isOptional : Bool
  Holds : Json → α → Prop
  Spoilt : Json → Prop

namespace Field

variable {α β : Type} [Schema β]

/-- A field that must be there. -/
def required (name : String) (part : α → β) : Field α :=
  ⟨name, false, fun j x => Schema.Holds j (part x), Schema.Spoilt β⟩

/-- A field that may be left out. -/
def optional (name : String) (part : α → β) : Field α :=
  ⟨name, true, fun j x => Schema.Holds j (part x), Schema.Spoilt β⟩

/-- The slot is what a record with the value has for the field. -/
def Fits (f : Field α) (slot : Option Json) (x : α) : Prop :=
  match slot with
  | some j => f.Holds j x
  | none => f.isOptional = true ∧ f.Holds .null x

/-- Where the field has its value, nothing is spoilt. -/
def Lawful (f : Field α) : Prop := ∀ {j : Json} {x : α}, f.Holds j x → ¬ f.Spoilt j

end Field

namespace Record

variable {α : Type} (schema : List (Field α))

/-- The tree is one of the record's: an object that gives each of its fields once, in whatever order and
among whatever others, or an array of the fields in their order. -/
def Holds : Json → α → Prop
  | .object fields, x => Readable fields ∧ ∀ f ∈ schema,
      (∃ j, GivesOnce fields f.name j ∧ f.Holds j x) ∨
        (f.isOptional = true ∧ Omits fields f.name ∧ f.Holds .null x)
  | .array items, x => List.Forall₂ (fun f j => f.Holds j x) schema items
  | _, _ => False

/-- The tree lacks a field or gives one twice, or a part of it does. -/
def Spoilt : Json → Prop
  | .object fields => ∃ f ∈ schema, (f.isOptional = false ∧ Omits fields f.name) ∨
      GivesTwice fields f.name ∨ ∃ n j, (n, j) ∈ fields ∧ n.Means f.name ∧ f.Spoilt j
  | .array items => ∃ p ∈ schema.zip items, p.1.Spoilt p.2
  | _ => False

variable {schema : List (Field α)} {j : Json} {x : α}

theorem exists_slot_iff {fields : List (Literal × Json)} {f : Field α} :
    (∃ slot, Fills fields f.name slot ∧ f.Fits slot x) ↔
      (∃ j, GivesOnce fields f.name j ∧ f.Holds j x) ∨
        (f.isOptional = true ∧ Omits fields f.name ∧ f.Holds .null x) := by
  rw [Option.exists, or_comm]
  exact or_congr Iff.rfl and_left_comm

theorem exists_slots_iff {fields : List (Literal × Json)} :
    (∃ slots, List.Forall₂ (Fills fields) (schema.map Field.name) slots ∧
        List.Forall₂ (fun f slot => f.Fits slot x) schema slots) ↔
      ∀ f ∈ schema, ∃ slot, Fills fields f.name slot ∧ f.Fits slot x := by
  induction schema with
  | nil => exact ⟨fun _ => List.forall_mem_nil _, fun _ => ⟨[], .nil, .nil⟩⟩
  | cons f schema ih =>
    rw [List.forall_mem_cons, ← ih]
    constructor
    · rintro ⟨slots, hfills, hfits⟩
      cases hfills with
      | cons hfill hfills =>
        cases hfits with
        | cons hfit hfits => exact ⟨⟨_, hfill, hfit⟩, _, hfills, hfits⟩
    · rintro ⟨⟨slot, hfill, hfit⟩, slots, hfills, hfits⟩
      exact ⟨slot :: slots, .cons hfill hfills, .cons hfit hfits⟩

/-- **A record's trees are those that it has slots from**, each with what the field needs. -/
theorem holds_iff : Holds schema j x ↔ ∃ slots, slots? (schema.map Field.name) j = some slots ∧
    List.Forall₂ (fun f slot => f.Fits slot x) schema slots := by
  cases j with
  | object fields =>
    simp only [slots?_object_eq_some_iff, and_assoc, exists_and_left]
    rw [exists_slots_iff]
    simp only [exists_slot_iff]
    rfl
  | array items =>
    unfold Holds slots?
    dsimp only
    constructor
    · intro h
      have hlength : items.length = (schema.map Field.name).length := by
        rw [List.length_map, h.length_eq]
      exact ⟨items.map some, if_pos hlength, List.forall₂_map_right_iff.mpr h⟩
    · rintro ⟨slots, hslots, h⟩
      split_ifs at hslots
      cases hslots
      exact List.forall₂_map_right_iff.mp h
  | null | bool | number | text => exact ⟨False.elim, fun ⟨_, hslots, _⟩ => by cases hslots⟩

/-- **Where a record has its value, nothing is spoilt.** -/
theorem not_spoilt (hparts : ∀ f ∈ schema, f.Lawful) (h : Holds schema j x) :
    ¬ Spoilt schema j := by
  cases j with
  | object fields =>
    rintro ⟨f, hf, hspoilt⟩
    obtain ⟨k, honce, hk⟩ | ⟨hoptional, homits, -⟩ := h.2 f hf
    · have hvalues := valuesOf_eq_singleton_iff.mpr honce
      obtain ⟨-, homits⟩ | htwice | ⟨n, j, hmem, hn, hj⟩ := hspoilt
      · rw [valuesOf_eq_nil_iff.mpr homits] at hvalues
        cases hvalues
      · obtain ⟨a, b, rest, hmore⟩ := valuesOf_of_givesTwice htwice
        rw [hmore] at hvalues
        cases hvalues
      · have hjk : j ∈ valuesOf fields f.name := mem_valuesOf hmem hn
        rw [hvalues, List.mem_singleton] at hjk
        rw [hjk] at hj
        exact hparts f hf hk hj
    · obtain ⟨hrequired, -⟩ | htwice | ⟨n, j, hmem, hn, -⟩ := hspoilt
      · rw [hoptional] at hrequired
        cases hrequired
      · obtain ⟨a, b, rest, hmore⟩ := valuesOf_of_givesTwice htwice
        rw [valuesOf_eq_nil_iff.mpr homits] at hmore
        cases hmore
      · exact homits _ hmem hn
  | array items =>
    rintro ⟨⟨f, k⟩, hmem, hk⟩
    obtain ⟨-, hall⟩ := List.forall₂_iff_zip.mp h
    exact hparts f (List.of_mem_zip hmem).1 (hall hmem) hk
  | null | bool | number | text => exact h.elim

end Record

/-! ### Lawful schemas -/

/-- The schema is what the type is read by. -/
class LawfulSchema (α : Type) [OfJson α] [Schema α] : Prop where
  reads_iff : ∀ {j : Json} {x : α}, ofJson? j = some x ↔ Holds j x
  not_spoilt : ∀ {j : Json} {x : α}, Holds j x → ¬ Schema.Spoilt α j

section records

variable {α β : Type}

/-- The schema of a record with these fields. -/
@[reducible] def Schema.record (schema : List (Field α)) : Schema α :=
  ⟨Record.Holds schema, Record.Spoilt schema⟩

/-- The fields are read as the schema has it: what is read is the tuple of a record's parts if each
slot fits its field. -/
structure Fields.Follows {τ : Type} (f : Fields τ) (schema : List (Field α)) (parts : α → τ) :
    Prop where
  names_eq : f.names = schema.map Field.name
  lawful : ∀ field ∈ schema, field.Lawful
  read?_iff : ∀ {slots : List (Option Json)} {x : α}, f.read? slots = some (parts x) ↔
    List.Forall₂ (fun field slot => field.Fits slot x) schema slots

namespace Fields.Follows

variable {τ : Type} {f : Fields τ} {schema : List (Field α)} {part : α → β} {parts : α → τ}

/-- **A record that is read by its fields is read by its schema.** -/
theorem lawfulSchema [OfJson α] {make : τ → α} (h : f.Follows schema parts)
    (hread : ∀ j, ofJson? j = f.ofTree? make j) (hmake : ∀ x, make (parts x) = x)
    (hparts : ∀ t, parts (make t) = t) : @LawfulSchema α _ (.record schema) := by
  refine @LawfulSchema.mk α _ (.record schema) (fun {j x} => ?_) (Record.not_spoilt h.lawful)
  have hx : ∀ t, make t = x ↔ t = parts x := by
    intro t
    constructor
    · rintro rfl
      exact (hparts t).symm
    · rintro rfl
      exact hmake x
  rw [hread, Fields.ofTree?, Option.map_eq_some_iff, h.names_eq]
  simp only [hx, exists_eq_right, Option.bind_eq_some_iff, h.read?_iff]
  exact Record.holds_iff.symm

theorem done : Fields.done.Follows ([] : List (Field α)) fun _ => () where
  names_eq := rfl
  lawful := List.forall_mem_nil _
  read?_iff {slots x} := by
    rw [List.forall₂_nil_left_iff]
    cases slots with
    | nil => exact ⟨fun _ => rfl, fun _ => rfl⟩
    | cons => exact ⟨nofun, nofun⟩

theorem cons {g : Fields (β × τ)} {field : Field α} (h : f.Follows schema parts)
    (hnames : g.names = field.name :: f.names) (hlawful : field.Lawful) (hnil : g.read? [] = none)
    (hread : ∀ slot slots x, g.read? (slot :: slots) = some (part x, parts x) ↔
      field.Fits slot x ∧ f.read? slots = some (parts x)) :
    g.Follows (field :: schema) fun x => (part x, parts x) where
  names_eq := by rw [hnames, h.names_eq, List.map_cons]
  lawful := List.forall_mem_cons.mpr ⟨hlawful, h.lawful⟩
  read?_iff {slots x} := by
    cases slots with
    | nil => simp [hnil]
    | cons slot slots => rw [hread, List.forall₂_cons, h.read?_iff]

theorem bind_pair_iff {o : Option β} {p : Option τ} {b : β} {t : τ} :
    (o.bind fun b => p.bind fun t => some (b, t)) = some (b, t) ↔ o = some b ∧ p = some t := by
  cases o <;> cases p <;> simp

variable [OfJson β] [Schema β] [LawfulSchema β] {name : String}

theorem required (h : f.Follows schema parts) :
    (Fields.required name f).Follows (.required name part :: schema) fun x => (part x, parts x) :=
  h.cons rfl LawfulSchema.not_spoilt rfl fun slot slots x => by
    cases slot with
    | none => exact ⟨nofun, fun hfits => nomatch hfits.1.1⟩
    | some j =>
      refine bind_pair_iff.trans (and_congr_left fun _ => ?_)
      exact LawfulSchema.reads_iff

theorem optional (h : f.Follows schema parts) :
    (Fields.optional name f).Follows (.optional name part :: schema) fun x => (part x, parts x) :=
  h.cons rfl LawfulSchema.not_spoilt rfl fun slot slots x => by
    refine bind_pair_iff.trans (and_congr_left fun _ => LawfulSchema.reads_iff.trans ?_)
    cases slot with
    | none => exact (and_iff_right rfl).symm
    | some j => exact Iff.rfl

end Fields.Follows

end records

instance : Schema UInt64 where
  Holds
    | .number lexeme, n => Decimal.Denotes lexeme n.toNat
    | _, _ => False
  Spoilt _ := False

theorem natural?_eq_some_iff {bound n : Nat} {lexeme : List Char} (hbound : 0 < bound) :
    natural? bound lexeme = some n ↔ Decimal.Denotes lexeme n ∧ n < bound := by
  rw [← Decimal.readBelow_eq_ok_iff hbound]
  unfold natural?
  cases Decimal.readBelow bound lexeme with
  | error failure => exact ⟨nofun, nofun⟩
  | ok m => exact ⟨fun h => congrArg Except.ok (Option.some.inj h),
      fun h => congrArg some (Except.ok.inj h)⟩

instance : LawfulSchema UInt64 where
  reads_iff {j n} := by
    cases j with
    | number lexeme =>
      show (natural? UInt64.size lexeme).map UInt64.ofNat = some n ↔ _
      rw [Option.map_eq_some_iff]
      constructor
      · rintro ⟨m, hm, rfl⟩
        obtain ⟨hdenotes, hlt⟩ := (natural?_eq_some_iff (by decide)).mp hm
        show Decimal.Denotes lexeme (UInt64.ofNat m).toNat
        rwa [UInt64.toNat_ofNat_of_lt' hlt]
      · intro h
        exact ⟨n.toNat, (natural?_eq_some_iff (by decide)).mpr ⟨h, n.toNat_lt⟩, UInt64.ofNat_toNat⟩
    | _ => exact ⟨nofun, nofun⟩
  not_spoilt _ := id

instance : Schema String where
  Holds
    | .text l, s => l.Means s
    | _, _ => False
  Spoilt _ := False

instance : LawfulSchema String where
  reads_iff {j s} := by
    cases j with
    | text l => exact Literal.text?_eq_some_iff
    | _ => exact ⟨nofun, nofun⟩
  not_spoilt _ := id

instance : Schema Bool where
  Holds j b := j = .bool b
  Spoilt _ := False

instance : LawfulSchema Bool where
  reads_iff {j b} := by
    cases j with
    | bool c => exact ⟨fun h => congrArg Json.bool (Option.some.inj h), fun h => by cases h; rfl⟩
    | _ => exact ⟨nofun, nofun⟩
  not_spoilt _ := id

section parts

variable {α : Type} [Schema α]

instance : Schema (Option α) where
  Holds
    | j, none => j = .null
    | j, some x => Holds j x
  Spoilt := Schema.Spoilt α

instance : Schema (List α) where
  Holds
    | .array items, xs => List.Forall₂ Holds items xs
    | _, _ => False
  Spoilt
    | .array items => ∃ j ∈ items, Schema.Spoilt α j
    | _ => False

variable [OfJson α] [LawfulSchema α]

instance : LawfulSchema (List α) where
  reads_iff {j xs} := by
    cases j with
    | array items =>
      show items.mapM ofJson? = some xs ↔ List.Forall₂ Holds items xs
      rw [mapM_eq_some_iff]
      simp only [LawfulSchema.reads_iff]
    | _ => exact ⟨nofun, nofun⟩
  not_spoilt {j xs} h := by
    cases j with
    | array items =>
      rintro ⟨j, hj, hspoilt⟩
      have hall : List.Forall₂ Holds items xs := h
      obtain ⟨i, hi, rfl⟩ := List.getElem_of_mem hj
      exact LawfulSchema.not_spoilt (hall.get hi (hall.length_eq ▸ hi)) hspoilt
    | _ => exact id

/-- What is there can be told from what is not, unless `null` may be there. -/
theorem lawfulSchema_option (hnull : ∀ x : α, ¬ Holds .null x) (hspoilt : ¬ Schema.Spoilt α .null) :
    LawfulSchema (Option α) where
  reads_iff {j o} := by
    cases o with
    | none =>
      cases j with
      | null => exact ⟨fun _ => rfl, fun _ => rfl⟩
      | _ =>
        refine ⟨fun h => ?_, nofun⟩
        obtain ⟨x, -, hx⟩ := Option.map_eq_some_iff.mp h
        cases hx
    | some x =>
      have hreads : ∀ j : Json, (ofJson? j).map some = some (some x) ↔ Holds j x := by
        intro j
        rw [← LawfulSchema.reads_iff, Option.map_eq_some_iff]
        exact ⟨fun ⟨y, hy, hyx⟩ => hy.trans hyx, fun h => ⟨x, h, rfl⟩⟩
      cases j with
      | null => exact ⟨nofun, fun h => absurd h (hnull x)⟩
      | _ => exact hreads _
  not_spoilt {j o} h := by
    cases o with
    | none =>
      obtain rfl : j = .null := h
      exact hspoilt
    | some x =>
      have hx : Holds j x := h
      have hunspoilt : ¬ Schema.Spoilt α j := LawfulSchema.not_spoilt hx
      exact hunspoilt

end parts

instance : LawfulSchema (Option UInt64) := lawfulSchema_option (fun _ => id) id

end Turnstile.Json
