import Mathlib.Data.List.Chain
import Turnstile.Json.Reader

/-! # Tokens and trees

A tree is made of tokens in a certain order (`Json.toTokens`), and the assembly takes just these for
that tree (`ofTokens?_eq_some_iff`). One direction is by recursion on the tree: the tokens of a tree
make it up, whatever it stands inside of (`run_toTokens`). For the other one, a state tells all of the
tokens that have led to it (`State.taken`), since it keeps the parts of what is still open; a step adds
its token and loses none (`taken_step`). -/

namespace Turnstile.Json

mutual

/-- The tokens that a tree is made of. -/
def toTokens : Json → List Token
  | .null => [.scalar .null]
  | .bool b => [.scalar (.bool b)]
  | .number lexeme => [.scalar (.number lexeme)]
  | .text l => [.text l]
  | .array items => .openArray :: (itemsToTokens items ++ [.closeArray])
  | .object fields => .openObject :: (fieldsToTokens fields ++ [.closeObject])

/-- The tokens of items, with commas between them. -/
def itemsToTokens : List Json → List Token
  | [] => []
  | [j] => toTokens j
  | j :: k :: rest => toTokens j ++ .comma :: itemsToTokens (k :: rest)

/-- The tokens of fields, with commas between them. -/
def fieldsToTokens : List (Literal × Json) → List Token
  | [] => []
  | [(n, j)] => .text n :: .colon :: toTokens j
  | (n, j) :: f :: rest => .text n :: .colon :: (toTokens j ++ .comma :: fieldsToTokens (f :: rest))

end

/-- The token is no scalar, or one that a text can spell. -/
def Token.Proper : Token → Prop
  | .scalar (.text _) | .scalar (.array _) | .scalar (.object _) => False
  | _ => True

/-- The token is a number. -/
def Token.isNumber : Token → Bool
  | .scalar (.number _) => true
  | _ => false

/-- No number comes right after another one. -/
def Separate (ts : List Token) : Prop :=
  ts.IsChain fun t u => t.isNumber = false ∨ u.isNumber = false

namespace Assembly

/-! ### The tokens of a tree make it up -/

theorem toTokens_eq_cons (j : Json) : ∃ t ts, j.toTokens = t :: ts ∧ t ≠ .closeArray := by
  cases j <;> exact ⟨_, _, rfl, nofun⟩

theorem itemsToTokens_cons (j : Json) (rest : List Json) :
    ∃ t ts, itemsToTokens (j :: rest) = t :: ts ∧ t ≠ .closeArray := by
  obtain ⟨t, ts, hj, ht⟩ := toTokens_eq_cons j
  cases rest with
  | nil => exact ⟨t, ts, hj, ht⟩
  | cons k rest =>
    unfold itemsToTokens
    rw [hj]
    exact ⟨t, _, rfl, ht⟩

theorem run_firstItem {t : Token} (ht : t ≠ .closeArray) (outer : List Frame) (ts : List Token) :
    run (.firstItem outer) (t :: ts) = run (.value (.items [] :: outer)) (t :: ts) := by
  rw [run_cons, run_cons]
  cases t with
  | closeArray => exact absurd rfl ht
  | _ => rfl

theorem run_name (n : Literal) (done : List (Literal × Json)) (outer : List Frame)
    (ts : List Token) : run (.name done outer) (.text n :: .colon :: ts) =
      run (.value (.fields done n :: outer)) ts := rfl

mutual

/-- **The tokens of a tree make up the tree**, whatever it stands inside of. -/
theorem run_toTokens (j : Json) (outer : List Frame) :
    run (.value outer) j.toTokens = some (.whole j outer) := by
  cases j with
  | null => rfl
  | bool b => rfl
  | number lexeme => rfl
  | text l => rfl
  | array items =>
    have hopen : step (.value outer) .openArray = some (.firstItem outer) := rfl
    unfold toTokens
    rw [run_cons, hopen, Option.bind_some]
    cases items with
    | nil => rfl
    | cons j rest =>
      have hitems := run_itemsToTokens (j :: rest) (List.cons_ne_nil j rest) [] outer
      obtain ⟨t, ts, hcons, ht⟩ := itemsToTokens_cons j rest
      rw [hcons, List.cons_append] at hitems ⊢
      rw [run_firstItem ht, hitems]
      rfl
  | object fields =>
    have hopen : step (.value outer) .openObject = some (.firstName outer) := rfl
    unfold toTokens
    rw [run_cons, hopen, Option.bind_some]
    cases fields with
    | nil => rfl
    | cons f rest =>
      have hfields := run_fieldsToTokens (f :: rest) (List.cons_ne_nil f rest) [] outer
      cases rest with
      | nil => exact hfields
      | cons f rest => exact hfields

theorem run_itemsToTokens (items : List Json) (hne : items ≠ []) (done : List Json)
    (outer : List Frame) :
    run (.value (.items done :: outer)) (itemsToTokens items ++ [.closeArray]) =
      some (.whole (.array (done.reverse ++ items)) outer) := by
  match items with
  | [] => exact absurd rfl hne
  | [j] =>
    unfold itemsToTokens
    rw [run_append, run_toTokens j, Option.bind_some]
    show some (State.whole (.array (j :: done).reverse) outer) = _
    rw [List.reverse_cons]
  | j :: k :: rest =>
    have hcomma : step (.whole j (.items done :: outer)) .comma =
        some (.value (.items (j :: done) :: outer)) := rfl
    unfold itemsToTokens
    rw [List.append_assoc, run_append, run_toTokens j, Option.bind_some, List.cons_append, run_cons,
      hcomma, Option.bind_some, run_itemsToTokens (k :: rest) (List.cons_ne_nil k rest),
      List.reverse_cons, List.append_assoc]
    rfl

theorem run_fieldsToTokens (fields : List (Literal × Json)) (hne : fields ≠ [])
    (done : List (Literal × Json)) (outer : List Frame) :
    run (.name done outer) (fieldsToTokens fields ++ [.closeObject]) =
      some (.whole (.object (done.reverse ++ fields)) outer) := by
  match fields with
  | [] => exact absurd rfl hne
  | [(n, j)] =>
    unfold fieldsToTokens
    rw [List.cons_append, List.cons_append, run_name, run_append, run_toTokens j, Option.bind_some]
    show some (State.whole (.object ((n, j) :: done).reverse) outer) = _
    rw [List.reverse_cons]
  | (n, j) :: f :: rest =>
    have hcomma : step (.whole j (.fields done n :: outer)) .comma =
        some (.name ((n, j) :: done) outer) := rfl
    unfold fieldsToTokens
    rw [List.cons_append, List.cons_append, run_name, List.append_assoc, run_append, run_toTokens j,
      Option.bind_some, List.cons_append, run_cons, hcomma, Option.bind_some,
      run_fieldsToTokens (f :: rest) (List.cons_ne_nil f rest), List.reverse_cons,
      List.append_assoc]
    rfl

end

/-! ### What has led to a state -/

/-- Items, each with a comma behind it. -/
def itemsTaken (items : List Json) : List Token := items.flatMap fun j => j.toTokens ++ [.comma]

/-- Fields, each with a comma behind it. -/
def fieldsTaken (fields : List (Literal × Json)) : List Token :=
  fields.flatMap fun f => .text f.1 :: .colon :: (f.2.toTokens ++ [.comma])

theorem itemsToTokens_concat (items : List Json) (j : Json) :
    itemsToTokens (items ++ [j]) = itemsTaken items ++ j.toTokens := by
  induction items with
  | nil => rfl
  | cons k rest ih =>
    have hcons : itemsToTokens (k :: (rest ++ [j])) =
        k.toTokens ++ .comma :: itemsToTokens (rest ++ [j]) := by
      cases rest <;> rfl
    rw [List.cons_append, hcons, ih]
    simp [itemsTaken]

theorem fieldsToTokens_concat (fields : List (Literal × Json)) (n : Literal) (j : Json) :
    fieldsToTokens (fields ++ [(n, j)]) =
      fieldsTaken fields ++ .text n :: .colon :: j.toTokens := by
  induction fields with
  | nil => rfl
  | cons f rest ih =>
    have hcons : fieldsToTokens (f :: (rest ++ [(n, j)])) = .text f.1 :: .colon ::
        (f.2.toTokens ++ .comma :: fieldsToTokens (rest ++ [(n, j)])) := by
      cases rest <;> rfl
    rw [List.cons_append, hcons, ih]
    simp [fieldsTaken]

/-- The tokens before the part that is being read. -/
def Frame.taken : Frame → List Token
  | .items done => .openArray :: itemsTaken done.reverse
  | .fields done n => .openObject :: (fieldsTaken done.reverse ++ [.text n, .colon])

/-- The tokens before the part that is being read, of all that is open. -/
def outerTaken (outer : List Frame) : List Token := outer.reverse.flatMap Frame.taken

theorem outerTaken_cons (frame : Frame) (outer : List Frame) :
    outerTaken (frame :: outer) = outerTaken outer ++ frame.taken := by
  simp [outerTaken]

/-- The tokens that have led to the state. -/
def State.taken : State → List Token
  | .value outer => outerTaken outer
  | .firstItem outer => outerTaken outer ++ [.openArray]
  | .firstName outer => outerTaken outer ++ [.openObject]
  | .name done outer => outerTaken outer ++ .openObject :: fieldsTaken done.reverse
  | .colon done n outer => outerTaken outer ++ .openObject :: (fieldsTaken done.reverse ++ [.text n])
  | .whole j outer => outerTaken outer ++ j.toTokens

theorem taken_value {outer : List Frame} {t : Token} (ht : t.Proper) {s : State}
    (h : value outer t = some s) : s.taken = outerTaken outer ++ [t] := by
  cases t with
  | scalar j =>
    cases h
    cases j with
    | null | bool | number => rfl
    | text | array | object => exact ht.elim
  | openArray | openObject | text =>
    cases h
    rfl
  | closeArray | closeObject | comma | colon => cases h

theorem taken_name {done : List (Literal × Json)} {outer : List Frame} {t : Token} {s : State}
    (h : name done outer t = some s) :
    s.taken = outerTaken outer ++ .openObject :: fieldsTaken done.reverse ++ [t] := by
  cases t with
  | text l =>
    cases h
    simp [State.taken]
  | _ => cases h

theorem taken_afterValue {j : Json} {outer : List Frame} {t : Token} {s : State}
    (h : afterValue j outer t = some s) : s.taken = outerTaken outer ++ j.toTokens ++ [t] := by
  unfold afterValue at h
  split at h
  all_goals cases h
  · simp [State.taken, outerTaken_cons, Frame.taken, itemsTaken]
  · simp [State.taken, outerTaken_cons, Frame.taken, toTokens, itemsToTokens_concat]
  · simp [State.taken, outerTaken_cons, Frame.taken, fieldsTaken]
  · simp [State.taken, outerTaken_cons, Frame.taken, toTokens, fieldsToTokens_concat]

/-- **A step adds its token and loses none.** -/
theorem taken_step {s s' : State} {t : Token} (ht : t.Proper) (h : step s t = some s') :
    s'.taken = s.taken ++ [t] := by
  unfold step at h
  split at h
  case h_1 => exact taken_value ht h
  case h_2 =>
    cases h
    simp [State.taken, toTokens, itemsToTokens]
  case h_3 =>
    rw [taken_value ht h, outerTaken_cons]
    rfl
  case h_4 =>
    cases h
    simp [State.taken, toTokens, fieldsToTokens]
  case h_5 => exact taken_name h
  case h_6 => exact taken_name h
  case h_7 =>
    cases h
    simp [State.taken, outerTaken_cons, Frame.taken]
  case h_8 => cases h
  case h_9 => exact taken_afterValue h

theorem taken_run {s s' : State} {ts : List Token} (hts : ∀ t ∈ ts, t.Proper)
    (h : run s ts = some s') : s'.taken = s.taken ++ ts := by
  induction ts generalizing s with
  | nil =>
    cases h
    exact (List.append_nil _).symm
  | cons t ts ih =>
    obtain ⟨ht, hrest⟩ := List.forall_mem_cons.mp hts
    rw [run_cons] at h
    obtain ⟨u, hu, h⟩ := Option.bind_eq_some_iff.mp h
    rw [ih hrest h, taken_step ht hu, List.append_assoc]
    rfl

theorem not_step_scalars {s s' s'' : State} {j k : Json} (h : step s (.scalar j) = some s')
    (h' : step s' (.scalar k) = some s'') : False := by
  have hwhole : ∃ outer, s' = .whole j outer := by
    cases s with
    | value outer | firstItem outer =>
      cases h
      exact ⟨_, rfl⟩
    | whole k outer =>
      rcases outer with _ | ⟨frame, outer⟩
      · cases h
      · cases frame <;> cases h
    | _ => cases h
  obtain ⟨outer, rfl⟩ := hwhole
  rcases outer with _ | ⟨frame, outer⟩
  · cases h'
  · cases frame <;> cases h'

/-- After a number the assembly takes no other one. -/
theorem separate_of_run {s s' : State} {ts : List Token} (h : run s ts = some s') :
    Separate ts := by
  induction ts generalizing s with
  | nil => exact .nil
  | cons t ts ih =>
    rw [run_cons] at h
    obtain ⟨u, hu, h⟩ := Option.bind_eq_some_iff.mp h
    refine List.isChain_cons.mpr ⟨fun t' ht' => ?_, ih h⟩
    cases ts with
    | nil => cases ht'
    | cons t'' ts =>
      cases ht'
      rw [run_cons] at h
      obtain ⟨u', hu', -⟩ := Option.bind_eq_some_iff.mp h
      cases t with
      | scalar j =>
        cases t' with
        | scalar k => exact (not_step_scalars hu hu').elim
        | _ => exact Or.inr rfl
      | _ => exact Or.inl rfl

end Assembly

/-- **The tokens of a tree, and no others, make up the tree.** -/
theorem ofTokens?_eq_some_iff {ts : List Token} (hts : ∀ t ∈ ts, t.Proper) {j : Json} :
    ofTokens? ts = some j ↔ ts = j.toTokens := by
  constructor
  · intro h
    obtain ⟨s, hs, hj⟩ := Option.bind_eq_some_iff.mp h
    have htaken := Assembly.taken_run hts hs
    cases s with
    | whole k outer =>
      cases outer with
      | nil =>
        cases hj
        exact htaken.symm
      | cons => cases hj
    | _ => cases hj
  · rintro rfl
    unfold ofTokens? Assembly.State.start
    rw [Assembly.run_toTokens]
    rfl

end Turnstile.Json
