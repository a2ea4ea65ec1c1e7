import Turnstile.Codec
import Turnstile.Paging.Page
import Turnstile.Proofs.Json.Reread

/-! # Values that come back

A type is lawful if each of its values can be written as JSON and is read where it was written
(`LawfulJson`). Plain values are, and so are lists, options and records of lawful parts; hence the
products and pages that the shop keeps are. For such a type the codec loses nothing
(`Codec.lawful_json`). -/

namespace Turnstile

namespace Text.Decimal

theorem digits_eq_cons {n : Nat} (hn : n ≠ 0) :
    ∃ c cs, digits n = c :: cs ∧ c ≠ '0' ∧ ∀ d ∈ c :: cs, d.isDigit = true := by
  have hhead : ∃ c cs, digits n = c :: cs ∧ c ≠ '0' := by
    induction n using Nat.strongRecOn with
    | ind n ih =>
      rcases Nat.lt_or_ge n 10 with hlt | hge
      · refine ⟨n.digitChar, [], Nat.toDigits_of_lt_base hlt, ?_⟩
        have hdigit : ∀ m : Fin 10, m.val ≠ 0 → Nat.digitChar m.val ≠ '0' := by decide
        exact hdigit ⟨n, hlt⟩ hn
      · obtain ⟨c, cs, hdigits, hc⟩ := ih (n / 10) (by omega) (by omega)
        refine ⟨c, cs ++ [(n % 10).digitChar], ?_, hc⟩
        unfold digits at hdigits ⊢
        rw [Nat.toDigits_of_base_le (by decide) hge, hdigits]
        rfl
  obtain ⟨c, cs, hdigits, hc⟩ := hhead
  refine ⟨c, cs, hdigits, hc, ?_⟩
  intro d hd
  rw [← hdigits] at hd
  exact isDigit_of_mem_digits hd

end Text.Decimal

namespace Json

open Turnstile.Text

/-! ### Numbers -/

namespace Phase

theorem run_whole {cs : List Char} (h : ∀ c ∈ cs, c.isDigit = true) :
    run .whole cs = some .whole := by
  induction cs with
  | nil => rfl
  | cons c cs ih =>
    rw [List.forall_mem_cons] at h
    have hnext : next? .whole c = some .whole := if_pos h.1
    have hrun : run .whole (c :: cs) = (next? .whole c).bind fun p => run p cs := rfl
    rw [hrun, hnext, Option.bind_some, ih h.2]

end Phase

theorem isNumber_digits (n : Nat) : IsNumber (Decimal.digits n) := by
  by_cases hn : n = 0
  · subst hn
    exact ⟨.zero, rfl, rfl⟩
  · obtain ⟨c, cs, hdigits, hc, hd⟩ := Decimal.digits_eq_cons hn
    rw [List.forall_mem_cons] at hd
    have hsign : c ≠ '-' := by
      rintro rfl
      cases hd.1
    have hnext : Phase.next? .sign c = some .whole := by
      unfold Phase.next?
      dsimp only
      rw [if_neg hc, if_pos hd.1]
    refine ⟨.whole, ?_, rfl⟩
    rw [hdigits]
    unfold Phase.ofLexeme?
    split
    · next heq => exact absurd (List.cons.inj heq).1 hsign
    · show (Phase.next? .sign c).bind _ = _
      rw [hnext]
      exact Phase.run_whole hd.2

/-! ### Records -/

theorem sound_record {fields : List (String × Json)} (h : ∀ f ∈ fields, f.2.Sound) :
    (record fields).Sound := by
  unfold record Sound
  induction fields with
  | nil => trivial
  | cons f fields ih =>
    rw [List.forall_mem_cons] at h
    exact ⟨h.1, ih h.2⟩

theorem record?_map_some (fields : List (String × Json)) :
    record? (fields.map fun f => (f.1, some f.2)) = some (record fields) := by
  have hmapM : (fields.map fun f => (f.1, some f.2)).mapM
      (fun f => do return (f.1, ← f.2) : String × Option Json → Option (String × Json)) =
        some fields := by
    induction fields with
    | nil => rfl
    | cons f fields ih => rw [List.map_cons, List.mapM_cons, ih]; rfl
  rw [record?, hmapM]
  rfl

theorem slots?_reread_record (names : List String) (fields : List (String × Json)) :
    slots? names (record fields).reread =
      names.mapM (slot? (fields.map fun f => (f.1, f.2.reread))) := by
  have hnamed : ∀ fs : List (String × Json),
      named? (rereadFields (fs.map fun f => (Literal.ofText f.1, f.2))) =
        some (fs.map fun f => (f.1, f.2.reread)) := by
    intro fs
    induction fs with
    | nil => rfl
    | cons f fs ih =>
      unfold named? at ih ⊢
      rw [List.map_cons, rereadFields, List.mapM_cons, ih, Literal.text?_reread,
        Literal.text?_ofText]
      rfl
  unfold record
  rw [reread, slots?, hnamed]
  rfl

theorem slot?_of_mem {fields : List (String × Json)} (h : (fields.map Prod.fst).Nodup)
    {f : String × Json} (hf : f ∈ fields) : slot? fields f.1 = some (some f.2) := by
  have hfilter : fields.filter (·.1 = f.1) = [f] := by
    induction fields with
    | nil => cases hf
    | cons g rest ih =>
      rw [List.map_cons, List.nodup_cons] at h
      rw [List.mem_cons] at hf
      rcases hf with rfl | hf
      · have hrest : rest.filter (·.1 = f.1) = [] := by
          rw [List.filter_eq_nil_iff]
          intro g hg
          rw [decide_eq_true_iff]
          intro heq
          exact h.1 (List.mem_map.mpr ⟨g, hg, heq⟩)
        rw [List.filter_cons, if_pos (decide_eq_true rfl), hrest]
      · have hne : ¬ g.1 = f.1 := fun heq => h.1 (List.mem_map.mpr ⟨f, hf, heq.symm⟩)
        rw [List.filter_cons, if_neg (by simpa using hne), ih h.2 hf]
  unfold slot?
  rw [hfilter]

theorem slots?_record {fields : List (String × Json)} (h : (fields.map Prod.fst).Nodup) :
    slots? (fields.map Prod.fst) (record fields).reread =
      some (fields.map fun f => some f.2.reread) := by
  have hslots : ∀ fs : List (String × Json), (∀ f ∈ fs, f ∈ fields) →
      (fs.map Prod.fst).mapM (slot? (fields.map fun f => (f.1, f.2.reread))) =
        some (fs.map fun f => some f.2.reread) := by
    intro fs
    induction fs with
    | nil => intro _; rfl
    | cons f fs ih =>
      intro hfs
      rw [List.forall_mem_cons] at hfs
      have hmem : (f.1, f.2.reread) ∈ fields.map fun f => (f.1, f.2.reread) :=
        List.mem_map.mpr ⟨f, hfs.1, rfl⟩
      have hnodup : ((fields.map fun f => (f.1, f.2.reread)).map Prod.fst).Nodup := by
        rw [List.map_map]
        exact h
      rw [List.map_cons, List.mapM_cons, slot?_of_mem hnodup hmem, ih hfs.2]
      rfl
  rw [slots?_reread_record, hslots fields fun _ hf => hf]

/-! ### Lawful types -/

/-- Every value can be written, and is read where it was written. -/
class LawfulJson (α : Type) [ToJson α] [OfJson α] : Prop where
  reads : ∀ x : α, ∃ j, toJson? x = some j ∧ j.Sound ∧ ofJson? j.reread = some x

instance : LawfulJson UInt64 where
  reads n := ⟨ofNat n.toNat, rfl, isNumber_digits n.toNat, ofJson?_uint64 n⟩

instance : LawfulJson String where
  reads s := ⟨ofText s, rfl, trivial, (Literal.text?_reread _).trans (Literal.text?_ofText s)⟩

instance : LawfulJson Bool where
  reads b := ⟨.bool b, rfl, trivial, rfl⟩

/-- What is there can be told from what is not, unless it is itself written as nothing. -/
theorem lawful_option {α : Type} [ToJson α] [OfJson α] [LawfulJson α]
    (h : ∀ x : α, toJson? x ≠ some .null) : LawfulJson (Option α) where
  reads
    | none => ⟨.null, rfl, trivial, rfl⟩
    | some x => by
      obtain ⟨j, hwrite, hsound, hread⟩ := LawfulJson.reads x
      refine ⟨j, hwrite, hsound, ?_⟩
      cases j with
      | null => exact absurd hwrite (h x)
      | _ => exact congrArg (Option.map some) hread

instance : LawfulJson (Option UInt64) := lawful_option fun _ => nofun

instance {α : Type} [ToJson α] [OfJson α] [LawfulJson α] : LawfulJson (List α) where
  reads xs := by
    have hitems : ∃ js, xs.mapM toJson? = some js ∧ SoundItems js ∧
        (rereadItems js).mapM ofJson? = some xs := by
      induction xs with
      | nil => exact ⟨[], rfl, trivial, rfl⟩
      | cons x xs ih =>
        obtain ⟨j, hwrite, hsound, hread⟩ := LawfulJson.reads x
        obtain ⟨js, hwrites, hsounds, hreads⟩ := ih
        refine ⟨j :: js, ?_, ⟨hsound, hsounds⟩, ?_⟩
        · rw [List.mapM_cons, hwrite, hwrites]
          rfl
        · rw [rereadItems, List.mapM_cons, hread, hreads]
          rfl
    obtain ⟨js, hwrites, hsounds, hreads⟩ := hitems
    refine ⟨.array js, ?_, hsounds, hreads⟩
    show (xs.mapM toJson?).map Json.array = _
    rw [hwrites]
    rfl

/-! ### Records of lawful parts -/

namespace Fields

/-- Where the fields are written, the tuple is read. -/
def Returns {τ : Type} (f : Fields τ) (values : List (String × Option Json)) (t : τ) : Prop :=
  ∃ written : List (String × Json), values = written.map (fun v => (v.1, some v.2)) ∧
    written.map Prod.fst = f.names ∧ (∀ v ∈ written, v.2.Sound) ∧
    f.read? (written.map fun v => some v.2.reread) = some t

namespace Returns

variable {α β τ : Type} {f : Fields τ} {values : List (String × Option Json)} {t : τ}
  {name : String}

theorem done : Fields.done.Returns [] () := ⟨[], rfl, rfl, List.forall_mem_nil _, rfl⟩

theorem cons [ToJson β] [OfJson β] [LawfulJson β] (b : β) {g : Fields (β × τ)}
    (h : f.Returns values t) (hnames : g.names = name :: f.names)
    (hread : ∀ j slots, g.read? (some j :: slots) =
      (ofJson? j).bind fun b => (f.read? slots).bind fun t => some (b, t)) :
    g.Returns ((name, toJson? b) :: values) (b, t) := by
  obtain ⟨written, rfl, hwritten, hsound, ht⟩ := h
  obtain ⟨j, hwrite, hjsound, hjread⟩ := LawfulJson.reads b
  refine ⟨(name, j) :: written, by rw [hwrite]; rfl, ?_,
    List.forall_mem_cons.mpr ⟨hjsound, hsound⟩, ?_⟩
  · rw [hnames, ← hwritten, List.map_cons]
  · rw [List.map_cons, hread, hjread, ht]
    rfl

theorem required [ToJson β] [OfJson β] [LawfulJson β] (b : β) (h : f.Returns values t) :
    (Fields.required name f).Returns ((name, toJson? b) :: values) (b, t) :=
  h.cons b rfl fun _ _ => rfl

theorem optional [ToJson β] [OfJson β] [LawfulJson β] (b : β) (h : f.Returns values t) :
    (Fields.optional name f).Returns ((name, toJson? b) :: values) (b, t) :=
  h.cons b rfl fun _ _ => rfl

/-- **A record of lawful parts** is read where it was written. -/
theorem reads [ToJson α] [OfJson α] {make : τ → α} {x : α} (h : f.Returns values t)
    (hnames : f.names.Nodup) (hwrite : toJson? x = record? values)
    (hread : ∀ j, ofJson? j = f.ofTree? make j) (hmake : make t = x) :
    ∃ j, toJson? x = some j ∧ j.Sound ∧ ofJson? j.reread = some x := by
  obtain ⟨written, rfl, hwritten, hsound, ht⟩ := h
  rw [← hwritten] at hnames
  refine ⟨record written, hwrite.trans (record?_map_some written), sound_record hsound, ?_⟩
  rw [hread, Fields.ofTree?, ← hwritten, slots?_record hnames, Option.bind_some, ht,
    Option.map_some, hmake]

end Returns

end Fields

instance : LawfulJson ProductCard where
  reads c := Fields.Returns.reads (.required c.id (.required c.name .done)) (by decide) rfl
    (fun _ => rfl) rfl

instance : LawfulJson ProductDetail where
  reads p := Fields.Returns.reads (.required p.id (.required p.name (.required p.price .done)))
    (by decide) rfl (fun _ => rfl) rfl

instance {α ι : Type} [ToJson α] [OfJson α] [ToJson ι] [OfJson ι] [LawfulJson α]
    [LawfulJson (Option ι)] : LawfulJson (Page α ι) where
  reads p := Fields.Returns.reads
    (.required p.content (.required p.size (.required p.hasNext (.optional p.next .done))))
    (show ["content", "size", "hasNext", "nextCursorId"].Nodup by decide) rfl (fun _ => rfl) rfl

end Json

open Json in
theorem Codec.encode_json_eq_ok_iff {α : Type} [ToJson α] [OfJson α] {x : α} {text : String} :
    (Codec.json α).encode x = .ok text ↔ ∃ j, toJson? x = some j ∧ j.compact = text := by
  unfold json
  dsimp only
  split
  · next h => simp [h]
  · next h => simp [h]

open Json in
theorem Codec.decode_json_eq_ok_iff {α : Type} [ToJson α] [OfJson α] {x : α} {text : String} :
    (Codec.json α).decode text = .ok x ↔ ∃ j, parse text.toList = some j ∧ ofJson? j = some x := by
  rw [← Option.bind_eq_some_iff]
  unfold json
  dsimp only
  split
  · next h => simp [h]
  · next h => simp [h]

/-- Every value has a text, and is the value of that text. -/
def Codec.Lawful {α : Type} (c : Codec α) : Prop :=
  ∀ x, ∃ text, c.encode x = .ok text ∧ c.decode text = .ok x

open Json in
theorem Codec.lawful_json (α : Type) [ToJson α] [OfJson α] [LawfulJson α] :
    (Codec.json α).Lawful := by
  intro x
  obtain ⟨j, hwrite, hsound, hread⟩ := LawfulJson.reads x
  refine ⟨j.compact, encode_json_eq_ok_iff.mpr ⟨j, hwrite, rfl⟩,
    decode_json_eq_ok_iff.mpr ⟨j.reread, ?_, hread⟩⟩
  rw [compact, String.toList_ofList, parse_render hsound]

theorem Codec.lawful_raw : Codec.raw.Lawful := fun x => ⟨x, rfl, rfl⟩

end Turnstile
