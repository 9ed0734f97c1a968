import SsiRestApi.Serializer.Serialize

/-!
# Fields that groups keep from the user

What `_serialize` reads beyond the requested fields: the currency field of a monetary
one, whether the user can read it or not.

    no field error, exact keys, equal results on states that look alike ↔
      the requested monetary fields have readable currency fields     (confined_iff)
-/

namespace SsiRest.Serializer

open Py Observe

section

variable {S : Schema}

/-- The user sees no difference between two states. -/
structure Agrees (d d' : Reading S) : Prop where
  read : ∀ model id field, S.readable model field = true →
    d.read model id field = d'.read model id field
  displayName : ∀ model id, d.displayName model id = d'.displayName model id

/-- The rows of nested records in an output. -/
def Out.rows : Out → List Row
  | value _ => []
  | record row => [row]
  | records rows => rows

variable (H : Host) (S) (settings : Settings) (options : Options)

/-- The keys of a row are the requested fields that the user can read, and those of nested rows
the nested ones. -/
def KeysExact : Specification → String → Row → Prop
  | .nil, _, row => row = []
  | .field name nested rest, model, row =>
    if S.readable model name then
      ∃ out tail, row = (name, out) :: tail ∧
        (∀ field, S.fields model name = some field →
          ∀ r ∈ out.rows, KeysExact nested field.comodel r) ∧
        KeysExact rest model tail
    else KeysExact rest model row

/-- The restricted fields do not show: no state makes them an error, the keys are exact, and
states the user cannot tell apart have the same result. -/
structure Confined (specification : Specification) (model : String) : Prop where
  noAccessError : ∀ (d : Reading S) ids e,
    (serialize H S settings options specification model ids).run d = .error e → ¬ e.IsFieldGroups
  keys : ∀ (d : Reading S) ids rows,
    (serialize H S settings options specification model ids).run d = .ok rows →
      rows.length = ids.length ∧ ∀ row ∈ rows, KeysExact S specification model row
  independent : ∀ (d d' : Reading S) ids, Agrees d d' →
    (serialize H S settings options specification model ids).run d =
      (serialize H S settings options specification model ids).run d'

/-- The field has a readable currency field, if it is monetary and has any, and `nested` holds
if the serializer goes into its records. -/
def FieldCovered (model : String) (field : Field) (nested : Prop) : Prop :=
  (field.type = .monetary → ∀ currencyField, field.currencyField = some currencyField →
    S.readable model currencyField = true) ∧
  (field.type.relational = true → ¬ (field.type = .many2one ∧ options.m2o.isStr "id" = true) →
    nested)

/-- Every requested monetary field that the user can read has a readable currency field. -/
def Covered : Specification → String → Prop
  | .nil, _ => True
  | .field name nested rest, model =>
    (S.readable model name = true → ∀ field, S.fields model name = some field →
      FieldCovered S options model field (Covered nested field.comodel)) ∧
    Covered rest model

end

/-! ## Validation -/

theorem not_isFieldGroups_of_validate {S : Schema} {specification : Specification} {model : String}
    {e : Failure} (h : validateSpecification S specification model = .error e) :
    ¬ e.IsFieldGroups := by
  induction specification generalizing model with
  | nil => cases h
  | field name nested rest ihNested ihRest =>
    unfold validateSpecification at h
    split at h
    · cases h
      exact id
    · next field hfield =>
      split at h
      · exact ihRest h
      · split at h
        · cases hnested : validateSpecification S nested field.comodel with
          | error e' =>
            rw [hnested] at h
            cases h
            exact ihNested hnested
          | ok u =>
            rw [hnested] at h
            exact ihRest h
        · cases h
          exact id

/-- What validation establishes of a field and its nested fields. -/
theorem validate_field {S : Schema} {name model : String} {nested rest : Specification}
    (h : validateSpecification S (.field name nested rest) model = .ok ()) :
    ∃ field, S.fields model name = some field ∧ validateSpecification S rest model = .ok () ∧
      (nested.isEmpty = false → field.type.relational = true ∧
        validateSpecification S nested field.comodel = .ok ()) := by
  unfold validateSpecification at h
  split at h
  · cases h
  · next field hfield =>
    refine ⟨field, hfield, ?_⟩
    split at h
    · next hempty => exact ⟨h, fun hne => absurd hempty (by rw [hne]; decide)⟩
    · split at h
      · next hrelational =>
        cases hnested : validateSpecification S nested field.comodel with
        | error e =>
          rw [hnested] at h
          cases h
        | ok u =>
          rw [hnested] at h
          exact ⟨h, fun _ => ⟨hrelational, rfl⟩⟩
      · cases h

/-! ## Covered requests -/

section

variable {H : Host} {S : Schema} {settings : Settings} {options : Options}

/-- A computation that shows nothing of restricted fields. -/
abbrev Blind {α : Type} (x : Reads S α) : Prop := Safe Agrees Failure.IsFieldGroups x

theorem blind_read {model field : String} (h : S.readable model field = true) (id : Nat) :
    Blind (read S model id field) where
  same _ _ hd := hd.read model id field h
  never d e he := d.read_readable model id field e h he

theorem blind_displayName (model : String) (id : Nat) : Blind (displayName S model id) where
  same _ _ hd := hd.displayName model id
  never d e he := d.displayName_readable model id e he

theorem blind_raised {α : Type} (e : Exn) : Blind (throw (.raised e) : Reads S α) :=
  safe_throw id

theorem blind_value {x : Except Failure Value} (h : ∀ e, x = .error e → ¬ e.IsFieldGroups) :
    Blind (do return Out.value (← liftM x) : Reads S Out) :=
  (safe_lift h).bind fun v => safe_pure (Out.value v)

theorem blind_currencyRound (currency : Nat) (value : Value) :
    Blind (currencyRound H S currency value) :=
  (blind_read S.rounding_readable currency).bind fun _ => safe_pure _

/-- A monetary value shows its currency, which is that of the company or one the user can read. -/
theorem blind_serializeMonetary {model : String} {field : Field}
    (h : ∀ currencyField, field.currencyField = some currencyField →
      S.readable model currencyField = true) (id : Nat) (value : Value) :
    Blind (serializeMonetary H S settings model id field value) := by
  have hread : Blind (readCurrency S model id field) := by
    unfold readCurrency
    split
    · next currencyField hcurrency => exact blind_read (h currencyField hcurrency) id
    · exact safe_pure _
  refine hread.bind fun currency => ?_
  split
  · split
    · exact blind_currencyRound _ value
    · exact blind_raised _
  · split
    · exact blind_currencyRound _ value
    · exact safe_pure value

theorem blind_serializeMany2one {nested : Option (List Nat → Reads S (List Row))}
    (h : options.m2o.isStr "id" = false → ∀ f, nested = some f → ∀ ids, Blind (f ids))
    (field : Field) (value : Value) : Blind (serializeMany2one S options nested field value) := by
  unfold serializeMany2one
  split
  · split
    · split
      · exact safe_pure _
      · next hm2o =>
        rw [Bool.not_eq_true] at hm2o
        split
        · next f =>
          refine (h hm2o f rfl _).bind fun rows => ?_
          split
          · exact safe_pure _
          · exact blind_raised _
        · exact (blind_displayName _ _).bind fun name => safe_pure _
    · exact blind_raised _
  · exact safe_pure _

theorem blind_serializeX2many {nested : Option (List Nat → Reads S (List Row))}
    (h : ∀ f, nested = some f → ∀ ids, Blind (f ids)) (value : Value) :
    Blind (serializeX2many S nested value) := by
  unfold serializeX2many
  split
  · split
    · exact safe_pure _
    · next f => exact (h f rfl _).bind fun rows => safe_pure _
  · exact blind_raised _

theorem not_isFieldGroups_of_datetime {value : Value} {e : Failure}
    (h : serializeDatetime value = .error e) : ¬ e.IsFieldGroups := by
  unfold serializeDatetime at h
  split at h
  · split at h <;> cases h
    exact id
  · cases h

theorem not_isFieldGroups_of_date {value : Value} {e : Failure}
    (h : serializeDate value = .error e) : ¬ e.IsFieldGroups := by
  unfold serializeDate at h
  split at h
  · split at h <;> cases h
    exact id
  · cases h

theorem not_isFieldGroups_of_binary {value : Value} {e : Failure}
    (h : serializeBinary H options value = .error e) : ¬ e.IsFieldGroups := by
  unfold serializeBinary at h
  split at h
  · cases h
  · split at h
    · split at h
      · split at h <;> cases h
        · exact id
        · exact id
      · cases h
        exact id
    · cases h

theorem blind_serializeValue {model : String} {field : Field} {covered : Prop}
    (hfield : FieldCovered S options model field covered)
    {nested : Option (List Nat → Reads S (List Row))}
    (hnested : covered → ∀ f, nested = some f → ∀ ids, Blind (f ids)) (id : Nat) (name : String)
    (value : Value) :
    Blind (serializeValue H S settings options nested model id name field value) := by
  obtain ⟨hmonetary, hrelational⟩ := hfield
  unfold serializeValue
  cases htype : field.type with
  | many2one =>
    refine blind_serializeMany2one (fun hm2o => ?_) field value
    refine hnested (hrelational (by rw [htype]; rfl) ?_)
    rintro ⟨-, hid⟩
    rw [hm2o] at hid
    cases hid
  | one2many | many2many =>
    refine blind_serializeX2many (hnested (hrelational (by rw [htype]; rfl) ?_)) value
    rintro ⟨hmany2one, -⟩
    rw [htype] at hmany2one
    cases hmany2one
  | datetime => exact blind_value fun _ => not_isFieldGroups_of_datetime
  | date => exact blind_value fun _ => not_isFieldGroups_of_date
  | binary => exact blind_value fun _ => not_isFieldGroups_of_binary
  | monetary =>
    exact (blind_serializeMonetary (hmonetary htype) id value).bind fun v => safe_pure _
  | selection | float | other => exact safe_pure _

/-- **One record.**  Induction on the specification: a field shows what it reads and what its
nested records show. -/
theorem blind_serializeRecord {specification : Specification} {model : String}
    (h : Covered S options specification model) (id : Nat) :
    Blind (serializeRecord H S settings options specification model id) := by
  induction specification generalizing model id with
  | nil => exact safe_pure []
  | field name nested rest ihNested ihRest =>
    obtain ⟨hfield, hrest⟩ := h
    unfold serializeRecord
    split
    · next hreadable =>
      split
      · exact blind_raised _
      · next field hname =>
        refine (blind_read hreadable id).bind fun value => ?_
        refine (blind_serializeValue (hfield hreadable field hname) ?_ id name value).bind fun out =>
          (ihRest hrest id).bind fun row => safe_pure _
        intro hcovered f hf ids
        split at hf
        · cases hf
        · cases hf
          exact (safe_lift fun e he => not_isFieldGroups_of_validate he).bind fun _ =>
            safe_mapM (fun id => ihNested hcovered id) ids
    · exact ihRest hrest id

theorem blind_serialize {specification : Specification} {model : String}
    (h : Covered S options specification model) (ids : List Nat) :
    Blind (serialize H S settings options specification model ids) :=
  (safe_lift fun _ he => not_isFieldGroups_of_validate he).bind fun _ =>
    safe_mapM (fun id => blind_serializeRecord h id) ids

/-! ## Keys -/

variable {nested : Option (List Nat → Reads S (List Row))}

theorem exists_of_mem_many2one {field : Field} {value : Value} {d : Reading S} {out : Out}
    (h : (serializeMany2one S options nested field value).run d = .ok out) {r : Row}
    (hr : r ∈ out.rows) :
    ∃ f ids rows, nested = some f ∧ (f ids).run d = .ok rows ∧ r ∈ rows := by
  unfold serializeMany2one at h
  split at h
  · split at h
    · split at h
      · cases h
        cases hr
      · split at h
        · next f =>
          obtain ⟨rows, hrows, h⟩ := run_bind_ok h
          split at h
          · next row rest =>
            cases h
            rw [List.mem_singleton.mp hr]
            exact ⟨f, _, _, rfl, hrows, List.mem_cons_self⟩
          · cases h
        · obtain ⟨text, -, h⟩ := run_bind_ok h
          cases h
          cases hr
    · cases h
  · cases h
    cases hr

theorem exists_of_mem_x2many {value : Value} {d : Reading S} {out : Out}
    (h : (serializeX2many S nested value).run d = .ok out) {r : Row} (hr : r ∈ out.rows) :
    ∃ f ids rows, nested = some f ∧ (f ids).run d = .ok rows ∧ r ∈ rows := by
  unfold serializeX2many at h
  split at h
  · split at h
    · cases h
      cases hr
    · next f =>
      obtain ⟨rows, hrows, h⟩ := run_bind_ok h
      cases h
      exact ⟨f, _, _, rfl, hrows, hr⟩
  · cases h

/-- The rows in an output come from the nested records. -/
theorem exists_of_mem_rows {model : String} {id : Nat} {name : String} {field : Field}
    {value : Value} {d : Reading S} {out : Out}
    (h : (serializeValue H S settings options nested model id name field value).run d = .ok out)
    {r : Row} (hr : r ∈ out.rows) :
    ∃ f ids rows, nested = some f ∧ (f ids).run d = .ok rows ∧ r ∈ rows := by
  have hvalue : ∀ {x : Reads S Value}, (do return Out.value (← x) : Reads S Out).run d = .ok out →
      r ∈ out.rows → False := by
    intro x hx hr
    obtain ⟨v, -, hx⟩ := run_bind_ok hx
    cases hx
    cases hr
  unfold serializeValue at h
  cases htype : field.type with
  | many2one =>
    rw [htype] at h
    exact exists_of_mem_many2one h hr
  | one2many | many2many =>
    rw [htype] at h
    exact exists_of_mem_x2many h hr
  | datetime | date | binary | monetary =>
    rw [htype] at h
    exact (hvalue h hr).elim
  | selection | float | other =>
    rw [htype] at h
    cases h
    cases hr

theorem keysExact_serializeRecord {specification : Specification} {model : String} {id : Nat}
    {d : Reading S} {row : Row}
    (h : (serializeRecord H S settings options specification model id).run d = .ok row) :
    KeysExact S specification model row := by
  induction specification generalizing model id row with
  | nil =>
    cases h
    rfl
  | field name nested rest ihNested ihRest =>
    unfold serializeRecord at h
    unfold KeysExact
    split at h
    · next hreadable =>
      rw [if_pos hreadable]
      split at h
      · cases h
      · next field hname =>
        obtain ⟨value, -, h⟩ := run_bind_ok h
        obtain ⟨out, hout, h⟩ := run_bind_ok h
        obtain ⟨tail, htail, h⟩ := run_bind_ok h
        cases h
        refine ⟨out, tail, rfl, ?_, ihRest htail⟩
        intro field' hfield' r hr
        rw [hname] at hfield'
        cases hfield'
        obtain ⟨f, ids, rows, hf, hrows, hin⟩ := exists_of_mem_rows hout hr
        split at hf
        · cases hf
        · cases hf
          obtain ⟨-, -, hmap⟩ := run_bind_ok hrows
          exact (forall_of_mapM (fun id row hrow => ihNested hrow) hmap).2 r hin
    · next hreadable =>
      rw [if_neg hreadable]
      exact ihRest h

theorem keysExact_serialize {specification : Specification} {model : String} {ids : List Nat}
    {d : Reading S} {rows : List Row}
    (h : (serialize H S settings options specification model ids).run d = .ok rows) :
    rows.length = ids.length ∧ ∀ row ∈ rows, KeysExact S specification model row := by
  obtain ⟨-, -, hmap⟩ := run_bind_ok h
  exact forall_of_mapM (fun id row hrow => keysExact_serializeRecord hrow) hmap

end

/-! ## A state that shows every restricted read -/

/-- What `record[f]` is on a record whose relations all lead to record 1. -/
def probeValue (field : Option Field) : Value :=
  match field.map Field.type with
  | some .many2one => .record (some 1)
  | some .one2many => .records [1]
  | some .many2many => .records [1]
  | _ => .false

/-- Records of which the user reads all fields but the restricted ones. -/
def probe (S : Schema) : Reading S where
  read model _ field :=
    if S.readable model field then .ok (probeValue (S.fields model field))
    else .error (.fieldGroups model field)
  displayName _ _ := .ok ""
  read_readable := by
    intro model id field e hreadable h
    rw [if_pos hreadable] at h
    cases h
  displayName_readable := by
    intro model id e h
    cases h

section

variable {H : Host} {S : Schema} {settings : Settings} {options : Options}

/-- On the probe the computation ends well under the condition, else with the error of a field. -/
def Decides {α : Type} (c : Prop) (x : Reads S α) : Prop :=
  (c ∧ ∃ a, x.run (probe S) = .ok a) ∨
    (¬ c ∧ ∃ model field, x.run (probe S) = .error (.fieldGroups model field))

theorem Decides.congr {α : Type} {c c' : Prop} {x : Reads S α} (h : Decides c x) (hc : c ↔ c') :
    Decides c' x := by
  unfold Decides
  rw [← hc]
  exact h

theorem decides_of_ok {α : Type} {c : Prop} {x : Reads S α} {a : α} (hc : c)
    (h : x.run (probe S) = .ok a) : Decides c x :=
  Or.inl ⟨hc, a, h⟩

theorem Decides.bind {α β : Type} {c c' : Prop} {x : Reads S α} {f : α → Reads S β}
    (hx : Decides c x) (hf : ∀ a, x.run (probe S) = .ok a → Decides c' (f a)) :
    Decides (c ∧ c') (x >>= f) := by
  unfold Decides
  rw [run_bind_eq]
  rcases hx with ⟨hc, a, ha⟩ | ⟨hc, model, field, he⟩
  · rw [ha]
    dsimp only
    rcases hf a ha with ⟨hc', hok⟩ | ⟨hc', herror⟩
    · exact Or.inl ⟨⟨hc, hc'⟩, hok⟩
    · exact Or.inr ⟨fun h => hc' h.2, herror⟩
  · rw [he]
    exact Or.inr ⟨fun h => hc h.1, model, field, rfl⟩

theorem Decides.map {α β : Type} {c : Prop} {x : Reads S α} {f : α → Reads S β}
    (hx : Decides c x)
    (hf : ∀ a, x.run (probe S) = .ok a → ∃ b, (f a).run (probe S) = .ok b) :
    Decides c (x >>= f) :=
  (hx.bind fun a ha => Or.inl ⟨trivial, hf a ha⟩).congr (and_iff_left trivial)

theorem decides_read (model : String) (id : Nat) (field : String) :
    Decides (S.readable model field = true) (read S model id field) := by
  by_cases h : S.readable model field = true
  · exact Or.inl ⟨h, _, if_pos h⟩
  · exact Or.inr ⟨h, model, field, if_neg h⟩

theorem read_probe {model field : String} {id : Nat} {value : Value}
    (h : (read S model id field).run (probe S) = .ok value) :
    value = probeValue (S.fields model field) := by
  by_cases hreadable : S.readable model field = true
  · have hread : (read S model id field).run (probe S) = .ok (probeValue (S.fields model field)) :=
      if_pos hreadable
    rw [hread] at h
    cases h
    rfl
  · have hread : (read S model id field).run (probe S) = .error (.fieldGroups model field) :=
      if_neg hreadable
    rw [hread] at h
    cases h

theorem decides_read_bind {α : Type} {model field : String} (h : S.readable model field = true)
    {id : Nat} {c : Prop} {f : Value → Reads S α}
    (hf : Decides c (f (probeValue (S.fields model field)))) :
    Decides c (read S model id field >>= f) := by
  have hread : (read S model id field).run (probe S) = .ok (probeValue (S.fields model field)) :=
    if_pos h
  unfold Decides
  rw [run_bind_eq, hread]
  exact hf

theorem run_currencyRound_probe (currency : Nat) (value : Value) :
    ∃ v, (currencyRound H S currency value).run (probe S) = .ok v := by
  have hread : (read S "res.currency" currency "rounding").run (probe S) =
      .ok (probeValue (S.fields "res.currency" "rounding")) := if_pos S.rounding_readable
  unfold currencyRound
  rw [run_bind_eq, hread]
  exact ⟨_, rfl⟩

/-- A monetary value asks for the currency field. -/
theorem decides_serializeMonetary {model name : String} {field : Field}
    (hfield : S.fields model name = some field) (id : Nat) (value : Value) :
    Decides (∀ currencyField, field.currencyField = some currencyField →
        S.readable model currencyField = true)
      (serializeMonetary H S settings model id field value) := by
  unfold serializeMonetary readCurrency
  cases hcurrency : field.currencyField with
  | none =>
    refine Or.inl ⟨fun _ h => (nomatch h), ?_⟩
    dsimp only
    rw [pure_bind, if_neg (by decide)]
    split
    · exact run_currencyRound_probe _ value
    · exact ⟨value, rfl⟩
  | some currencyField =>
    refine ((decides_read model id currencyField).map fun currency hrun => ?_).congr ?_
    · have hvalue : currency = .record (some 1) := by
        rw [read_probe hrun]
        unfold probeValue
        rw [S.currency_many2one model name field currencyField hfield hcurrency]
      subst hvalue
      exact run_currencyRound_probe 1 value
    · constructor
      · intro h c hc
        cases hc
        exact h
      · exact fun h => h currencyField rfl

theorem decides_serializeRecords {specification : Specification} {model : String} {c : Prop} {id : Nat}
    (hvalid : validateSpecification S specification model = .ok ())
    (h : Decides c (serializeRecord H S settings options specification model id)) :
    Decides c (serializeRecords H S settings options specification model [id]) := by
  have hrun : (serializeRecords H S settings options specification model [id]).run (probe S) =
      ([id].mapM (serializeRecord H S settings options specification model)).run (probe S) := by
    unfold serializeRecords
    rw [run_bind_eq, hvalid]
    rfl
  unfold Decides
  rw [hrun, run_mapM_singleton]
  rcases h with ⟨hc, row, hrow⟩ | ⟨hc, m, field, herror⟩
  · rw [hrow]
    exact Or.inl ⟨hc, _, rfl⟩
  · rw [herror]
    exact Or.inr ⟨hc, m, field, rfl⟩

variable {covered : Prop} {nested : Option (List Nat → Reads S (List Row))}

theorem decides_serializeMany2one (hempty : nested = none → covered)
    (hnested : ∀ f, nested = some f → Decides covered (f [1]))
    (hone : ∀ f rows, nested = some f → (f [1]).run (probe S) = .ok rows → rows ≠ [])
    (field : Field) :
    Decides (¬ options.m2o.isStr "id" = true → covered)
      (serializeMany2one S options nested field (.record (some 1))) := by
  unfold serializeMany2one
  rw [if_pos (by decide)]
  dsimp only
  by_cases hm2o : options.m2o.isStr "id" = true
  · rw [if_pos hm2o]
    exact decides_of_ok (fun h => absurd hm2o h) rfl
  · rw [if_neg hm2o]
    cases nested with
    | none => exact decides_of_ok (fun _ => hempty rfl) rfl
    | some f =>
      refine ((hnested f rfl).map fun rows hrows => ?_).congr ⟨fun h _ => h, fun h => h hm2o⟩
      cases rows with
      | nil => exact absurd rfl (hone f [] rfl hrows)
      | cons row rows => exact ⟨_, rfl⟩

theorem decides_serializeX2many (hempty : nested = none → covered)
    (hnested : ∀ f, nested = some f → Decides covered (f [1])) :
    Decides covered (serializeX2many S nested (.records [1])) := by
  unfold serializeX2many
  cases nested with
  | none => exact decides_of_ok (hempty rfl) rfl
  | some f =>
    exact (hnested f rfl).map fun rows _ => ⟨_, rfl⟩

theorem decides_serializeValue {model name : String} {field : Field}
    (hname : S.fields model name = some field) (hempty : nested = none → covered)
    (hnested : ∀ f, nested = some f → Decides covered (f [1]))
    (hone : ∀ f rows, nested = some f → (f [1]).run (probe S) = .ok rows → rows ≠ []) (id : Nat) :
    Decides (FieldCovered S options model field covered)
      (serializeValue H S settings options nested model id name field
        (probeValue (some field))) := by
  unfold serializeValue probeValue FieldCovered
  rw [Option.map_some]
  cases htype : field.type with
  | many2one =>
    refine (decides_serializeMany2one hempty hnested hone field).congr ?_
    simp [FieldType.relational]
  | one2many | many2many =>
    refine (decides_serializeX2many hempty hnested).congr ?_
    simp [FieldType.relational]
  | monetary =>
    refine Decides.congr ((decides_serializeMonetary hname id _).map fun v _ => ?_) ?_
    · exact ⟨.value v, rfl⟩
    · simp [FieldType.relational]
  | datetime | date | selection | float | other =>
    exact decides_of_ok (by simp [FieldType.relational]) rfl
  | binary =>
    obtain ⟨v, hv⟩ : ∃ v, serializeBinary H options .false = .ok v := by
      unfold serializeBinary
      split
      · exact ⟨_, rfl⟩
      · exact ⟨_, rfl⟩
    dsimp only
    rw [hv]
    exact decides_of_ok (by simp [FieldType.relational]) rfl

/-- **Probing a record.**  Induction on the specification: on the probe a request succeeds when it
is covered, and else fails for a currency field. -/
theorem decides_serializeRecord {specification : Specification} {model : String}
    (hvalid : validateSpecification S specification model = .ok ()) (id : Nat) :
    Decides (Covered S options specification model)
      (serializeRecord H S settings options specification model id) := by
  induction specification generalizing model id with
  | nil => exact decides_of_ok trivial rfl
  | field name nested rest ihNested ihRest =>
    obtain ⟨field, hfield, hrest, hnested⟩ := validate_field hvalid
    unfold serializeRecord Covered
    by_cases hreadable : S.readable model name = true
    · rw [if_pos hreadable, hfield]
      dsimp only
      refine Decides.congr (c := FieldCovered S options model field
        (Covered S options nested field.comodel) ∧ Covered S options rest model) ?_ ?_
      · refine decides_read_bind hreadable ?_
        rw [hfield]
        refine Decides.bind (decides_serializeValue hfield ?_ ?_ ?_ id) fun out _ =>
          (ihRest hrest id).map fun row _ => ?_
        · intro hnone
          cases nested with
          | nil => trivial
          | field => cases hnone
        · intro f hf
          split at hf
          · cases hf
          · next hne =>
            cases hf
            have hnestedValid := (hnested (by simpa using hne)).2
            exact decides_serializeRecords hnestedValid (ihNested hnestedValid 1)
        · intro f rows hf hrows hnil
          split at hf
          · cases hf
          · cases hf
            obtain ⟨-, -, hmap⟩ := run_bind_ok hrows
            have hlength := (forall_of_mapM (P := fun _ => True) (fun _ _ _ => trivial) hmap).1
            rw [hnil] at hlength
            cases hlength
        · exact ⟨(name, out) :: row, rfl⟩
      · refine and_congr_left fun _ => ⟨fun h _ field' hfield' => ?_, fun h => h hreadable field rfl⟩
        cases hfield'
        exact h
    · rw [if_neg hreadable]
      refine (ihRest hrest id).congr ?_
      exact ⟨fun h => ⟨fun hr => absurd hr hreadable, h⟩, fun h => h.2⟩

/-- **Restricted fields.**  Serializing along a specification never fails for the groups of a field,
has exactly the keys the user can read and shows nothing of the fields the user cannot read,
whatever the records, exactly when every requested monetary field that the user can read has a
currency field that the user can read, or none. -/
theorem confined_iff {specification : Specification} {model : String}
    (hvalid : validateSpecification S specification model = .ok ()) :
    Confined S H settings options specification model ↔
      Covered S options specification model := by
  constructor
  · intro h
    have hdecides : Decides (Covered S options specification model)
        (serializeRecords H S settings options specification model [1]) :=
      decides_serializeRecords hvalid (decides_serializeRecord hvalid 1)
    rcases hdecides with ⟨hcovered, -⟩ | ⟨-, m, field, herror⟩
    · exact hcovered
    · exact absurd trivial (h.noAccessError (probe S) [1] _ herror)
  · intro h
    exact ⟨fun d ids e he => (blind_serialize h ids).never d e he,
      fun d ids rows hrows => keysExact_serialize hrows,
      fun d d' ids hd => (blind_serialize h ids).same d d' hd⟩

end

/-! ## An order -/

/-- The fields of an order and of its lines; the price of a line is in the currency of the line. -/
def orderFields (model name : String) : Option Field :=
  if name = "currency_id" then some { type := .many2one, comodel := "res.currency" }
  else if name = "amount_total" then some { type := .monetary, currencyField := some "currency_id" }
  else if name = "line_ids" then some { type := .one2many, comodel := "sale.order.line" }
  else if name = "margin" then some { type := .float, digits := some (.inl 2) }
  else if model = "res.currency" ∧ name = "rounding" then some { type := .float }
  else none

/-- Orders for a user who cannot read margins nor, if `restricted`, currencies. -/
def orderSchema (restricted : Bool) : Schema where
  fields := orderFields
  readable _ name := name != "margin" && !(restricted && name == "currency_id")
  currency_many2one := by
    intro model name field currencyField hfield hcurrency
    unfold orderFields at hfield
    split_ifs at hfield <;> cases hfield <;> cases hcurrency
    rfl
  rounding_readable := by decide +revert

/-- The total, the margin and the totals of the lines. -/
def orderSpecification : Specification :=
  .field "amount_total" .nil (.field "margin" .nil
    (.field "line_ids" (.field "amount_total" .nil .nil) .nil))

def orderSettings : Settings := ⟨some 1, fun _ => 2, fun _ _ => []⟩

/-- Whole amounts, rounded to a multiple. -/
def orderHost : Host where
  md5 _ := ""
  round value _ := value
  floatRound value rounding :=
    match value, rounding with
    | .json (.int amount), .json (.int unit) => .json (.int (amount / unit * unit))
    | value, _ => value

/-- An order of 7 in a currency; amounts of currency `c` are multiples of `c`. -/
def orderIn (restricted : Bool) (currency : Nat) : Reading (orderSchema restricted) where
  read _ id name :=
    if name = "currency_id" then .ok (.record (some currency))
    else if name = "line_ids" then .ok (.records [])
    else if name = "rounding" then .ok (.json (.int id))
    else .ok (.json (.int 7))
  displayName _ _ := .ok ""
  read_readable := by
    intro model id field e _ h
    split_ifs at h
  displayName_readable := by
    intro model id e h
    cases h

theorem confined_order :
    Confined (orderSchema false) orderHost orderSettings {} orderSpecification "sale.order" := by
  have hcovered : ∀ {m name field}, (orderSchema false).fields m name = some field →
      ∀ {c : Prop}, c → ∀ model, FieldCovered (orderSchema false) {} model field c := by
    intro m name field hfield c hc model
    refine ⟨fun _ currencyField hcurrency => ?_, fun _ _ => hc⟩
    unfold orderSchema orderFields at hfield
    dsimp only at hfield
    split_ifs at hfield <;> cases hfield <;> cases hcurrency
    rfl
  refine (confined_iff rfl).mpr ⟨fun _ field hfield => hcovered hfield trivial _, ?_⟩
  refine ⟨fun _ field hfield => hcovered hfield trivial _, fun _ field hfield => ?_, trivial⟩
  exact hcovered hfield ⟨fun _ _ hfield => hcovered hfield trivial _, trivial⟩ _

/-- A total whose currency is restricted fails for it, or tells which currency it is in. -/
theorem not_confined_order :
    (serialize orderHost (orderSchema true) orderSettings {} orderSpecification "sale.order"
        [1]).run (probe (orderSchema true)) = .error (.fieldGroups "sale.order" "currency_id") ∧
      Agrees (orderIn true 2) (orderIn true 5) ∧
      (serialize orderHost (orderSchema true) orderSettings {} orderSpecification "sale.order"
        [1]).run (orderIn true 2) ≠
      (serialize orderHost (orderSchema true) orderSettings {} orderSpecification "sale.order"
        [1]).run (orderIn true 5) ∧
      ¬ Confined (orderSchema true) orderHost orderSettings {} orderSpecification "sale.order" := by
  have hprobe : (serialize orderHost (orderSchema true) orderSettings {} orderSpecification
      "sale.order" [1]).run (probe (orderSchema true)) =
        .error (.fieldGroups "sale.order" "currency_id") := by rfl
  refine ⟨hprobe, ⟨?_, fun _ _ => rfl⟩, ?_, fun h => h.noAccessError _ _ _ hprobe trivial⟩
  · intro model id name hreadable
    have hname : name ≠ "currency_id" := by
      rintro rfl
      cases hreadable
    unfold orderIn
    dsimp only
    rw [if_neg hname, if_neg hname]
  · intro h
    have htotal : (serialize orderHost (orderSchema true) orderSettings {} orderSpecification
        "sale.order" [1]).run (orderIn true 2) = .ok [[("amount_total", .value (.json (.int 6))),
          ("line_ids", .records [])]] := by rfl
    have htotal' : (serialize orderHost (orderSchema true) orderSettings {} orderSpecification
        "sale.order" [1]).run (orderIn true 5) = .ok [[("amount_total", .value (.json (.int 5))),
          ("line_ids", .records [])]] := by rfl
    rw [htotal, htotal'] at h
    cases h

end SsiRest.Serializer
