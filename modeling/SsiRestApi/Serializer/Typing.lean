import SsiRestApi.Serializer.RawSpecification

/-!
# Reading records of typed fields

What `_serialize_record` raises and returns on records whose values fit the types of their
fields, when nothing is validated on the way.

    it raises what reading raises                                  (avoids_recordUnchecked)
    one dictionary for each record, in order, at every level       (rowOf_recordUnchecked)
-/

namespace SsiRest.Serializer

open Py Observe

/-! ## Typed values -/

/-- What a value of JSON is made of. -/
inductive Plain : Json → Prop where
  | null : Plain .null
  | bool (b : Bool) : Plain (.bool b)
  | int (i : Int) : Plain (.int i)
  | float (f : PyFloat) : Plain (.float f)
  | str (s : String) : Plain (.str s)
  | arr {items : List Json} (h : ∀ item ∈ items, Plain item) : Plain (.arr items)
  | obj {fields : List (String × Json)} (h : ∀ f ∈ fields, Plain f.2) : Plain (.obj fields)

/-- The values of a field: a relation or a `reference` that is set has records, a `properties` has
what Odoo makes of it, and any other field has plain data. -/
def FieldType.Admits : FieldType → Value → Prop
  | .many2one, value => ∃ id, value = .record id
  | .one2many, value | .many2many, value => ∃ ids, value = .records ids
  | .datetime, value => value = .false ∨ ∃ d, value = .datetime d
  | .date, value => value = .false ∨ ∃ year month day, value = .date year month day
  | .binary, value =>
    value = .false ∨ ∃ ascii data, value = .bytes ascii ∧ b64decode ascii = .ok data
  | .other "reference", value => value = .false ∨ ∃ id, value = .record (some id)
  | .other "properties", _ => True
  | _, value => ∃ v, value = .json v ∧ Plain v

/-- Every value that is read fits the type of its field. -/
def WellTyped {S : Schema} (d : Reading S) : Prop :=
  ∀ model id name field value, S.fields model name = some field →
    d.read model id name = .ok value → field.type.Admits value

section

variable (H : Host) (S : Schema) (settings : Settings) (options : Options)

/-- `_serialize_record` without the validation of nested fields. -/
def recordUnchecked : Specification → String → Nat → Reads S Row
  | .nil, _, _ => return []
  | .field name nested rest, model, id => do
    if S.readable model name then
      match S.fields model name with
      | none => throw (.raised (.python "KeyError"))
      | some field =>
        let value ← read S model id name
        let out ← serializeValue H S settings options
          (if nested.isEmpty then none
            else some fun ids => ids.mapM (recordUnchecked nested field.comodel))
          model id name field value
        let row ← recordUnchecked rest model id
        return (name, out) :: row
    else recordUnchecked rest model id

end

section

variable {H : Host} {S : Schema} {settings : Settings} {options : Options}

/-- Past validation the validation of nested fields never fails. -/
theorem serializeRecord_eq_recordUnchecked {s : Specification} {model : String}
    (h : validateSpecification S s model = .ok ()) (id : Nat) :
    serializeRecord H S settings options s model id =
      recordUnchecked H S settings options s model id := by
  induction s generalizing model id with
  | nil => rfl
  | field name nested rest ihNested ihRest =>
    obtain ⟨field, hfield, hrest, hnested⟩ := validate_field h
    rw [serializeRecord, recordUnchecked, ihRest hrest, hfield]
    cases hempty : nested.isEmpty with
    | true => rfl
    | false =>
      obtain ⟨-, hvalid⟩ := hnested hempty
      have hrecords : serializeRecord H S settings options nested field.comodel =
          recordUnchecked H S settings options nested field.comodel :=
        funext fun id => ihNested hvalid id
      simp only [hvalid, hrecords]
      rfl

theorem serialize_eq_mapM {s : Specification} {model : String}
    (h : validateSpecification S s model = .ok ()) (ids : List Nat) :
    serialize H S settings options s model ids =
      ids.mapM (recordUnchecked H S settings options s model) := by
  have hrecords : serializeRecord H S settings options s model =
      recordUnchecked H S settings options s model :=
    funext fun id => serializeRecord_eq_recordUnchecked h id
  rw [serialize, serializeRecords, h, hrecords]
  rfl

/-! ## What is raised -/

/-- Reading does not raise such a failure, nor do operations on values, if need be because the
values fit. -/
structure Spared (d : Reading S) (bad : Failure → Prop) : Prop where
  read : ∀ model id field e, d.read model id field = .error e → ¬ bad e
  displayName : ∀ model id e, d.displayName model id = .error e → ¬ bad e
  typed : ∀ type, bad (.raised (.python type)) → WellTyped d

variable {d : Reading S} {bad : Failure → Prop}

theorem avoids_value {x : Except Failure Value} (h : ∀ e, x = .error e → ¬ bad e) :
    Avoids d bad (do return Out.value (← liftM x) : Reads S Out) :=
  Avoids.bind (fun e he => h e he) fun v _ => avoids_pure (Out.value v)

section

variable {value : Value}

theorem not_bad_of_datetime
    (hvalue : ∀ type, bad (.raised (.python type)) → FieldType.datetime.Admits value) {e : Failure}
    (h : serializeDatetime value = .error e) : ¬ bad e := by
  intro hbad
  unfold serializeDatetime at h
  split at h
  · next htruthy =>
    split at h
    · cases h
    · next hother =>
      cases h
      rcases hvalue _ hbad with rfl | ⟨d, rfl⟩
      · cases htruthy
      · exact hother d rfl
  · cases h

theorem not_bad_of_date
    (hvalue : ∀ type, bad (.raised (.python type)) → FieldType.date.Admits value) {e : Failure}
    (h : serializeDate value = .error e) : ¬ bad e := by
  intro hbad
  unfold serializeDate at h
  split at h
  · next htruthy =>
    split at h
    · cases h
    · cases h
    · next hother _ =>
      cases h
      rcases hvalue _ hbad with rfl | ⟨year, month, day, rfl⟩
      · cases htruthy
      · exact hother year month day rfl
  · cases h

theorem not_bad_of_binary
    (hvalue : ∀ type, bad (.raised (.python type)) → FieldType.binary.Admits value) {e : Failure}
    (h : serializeBinary H options value = .error e) : ¬ bad e := by
  intro hbad
  unfold serializeBinary at h
  split at h
  · cases h
  · split at h
    · next htruthy =>
      split at h
      · next ascii =>
        have hdecoded : ∀ type, bad (.raised (.python type)) → ∃ data, b64decode ascii = .ok data := by
          intro type htype
          rcases hvalue type htype with hfalse | ⟨ascii', data, heq, hdata⟩
          · cases hfalse
          · cases heq
            exact ⟨data, hdata⟩
        split at h
        · cases h
        · next herror =>
          cases h
          obtain ⟨data, hdata⟩ := hdecoded _ hbad
          rw [herror] at hdata
          cases hdata
        · next herror =>
          cases h
          obtain ⟨data, hdata⟩ := hdecoded _ hbad
          rw [herror] at hdata
          cases hdata
      · next hother =>
        cases h
        rcases hvalue _ hbad with rfl | ⟨ascii, data, rfl, -⟩
        · cases htruthy
        · exact hother ascii rfl
    · cases h

end

theorem avoids_currencyRound (h : Spared d bad) (currency : Nat) (value : Value) :
    Avoids d bad (currencyRound H S currency value) :=
  Avoids.bind (fun e he => h.read _ _ _ e he) fun _ _ => avoids_pure _

/-- The currency of a monetary value is a record. -/
theorem avoids_serializeMonetary (h : Spared d bad) {model name : String} {field : Field}
    (hfield : S.fields model name = some field) (id : Nat) (value : Value) :
    Avoids d bad (serializeMonetary H S settings model id field value) := by
  have hread : Avoids d bad (readCurrency S model id field) := by
    unfold readCurrency
    split
    · exact fun e he => h.read _ _ _ e he
    · exact avoids_pure _
  refine Avoids.bind hread fun currency hcurrency => ?_
  split
  · next htruthy =>
    split
    · exact avoids_currencyRound h _ value
    · next hother =>
      refine avoids_throw fun hbad => ?_
      unfold readCurrency at hcurrency
      split at hcurrency
      · next currencyField hsome =>
        obtain ⟨target, htarget, htype⟩ :=
          Option.map_eq_some_iff.mp (S.currency_many2one _ _ _ _ hfield hsome)
        have hadmits := h.typed _ hbad _ _ _ _ _ htarget hcurrency
        rw [htype] at hadmits
        obtain ⟨id, rfl⟩ := hadmits
        cases id with
        | none => cases htruthy
        | some id => exact hother id rfl
      · cases hcurrency
        cases htruthy
  · split
    · exact avoids_currencyRound h _ value
    · exact avoids_pure value

variable {nested : Option (List Nat → Reads S (List Row))}

theorem avoids_serializeMany2one (h : Spared d bad) (field : Field) {value : Value}
    (hvalue : ∀ type, bad (.raised (.python type)) → FieldType.many2one.Admits value)
    (hnested : ∀ f, nested = some f → ∀ ids, Avoids d bad (f ids))
    (hone : ∀ f id rows, nested = some f → (f [id]).run d = .ok rows → rows ≠ []) :
    Avoids d bad (serializeMany2one S options nested field value) := by
  unfold serializeMany2one
  split
  · next htruthy =>
    split
    · next id =>
      split
      · exact avoids_pure _
      · split
        · next f =>
          refine Avoids.bind (hnested f rfl _) fun rows hrows => ?_
          cases rows with
          | nil => exact absurd rfl (hone f id [] rfl hrows)
          | cons row rows => exact avoids_pure _
        · exact Avoids.bind (fun e he => h.displayName _ _ e he) fun name _ => avoids_pure _
    · next hother =>
      refine avoids_throw fun hbad => ?_
      obtain ⟨id, rfl⟩ := hvalue _ hbad
      cases id with
      | none => cases htruthy
      | some id => exact hother id rfl
  · exact avoids_pure _

theorem avoids_serializeX2many {value : Value}
    (hvalue : ∀ type, bad (.raised (.python type)) → FieldType.one2many.Admits value)
    (hnested : ∀ f, nested = some f → ∀ ids, Avoids d bad (f ids)) :
    Avoids d bad (serializeX2many S nested value) := by
  unfold serializeX2many
  split
  · split
    · exact avoids_pure _
    · next f => exact Avoids.bind (hnested f rfl _) fun rows _ => avoids_pure _
  · next hother =>
    refine avoids_throw fun hbad => ?_
    obtain ⟨ids, rfl⟩ := hvalue _ hbad
    exact hother ids rfl

theorem avoids_serializeValue (h : Spared d bad) {model name : String} {field : Field}
    (hfield : S.fields model name = some field) {value : Value}
    (hvalue : ∀ type, bad (.raised (.python type)) → field.type.Admits value)
    (hnested : ∀ f, nested = some f → ∀ ids, Avoids d bad (f ids))
    (hone : ∀ f id rows, nested = some f → (f [id]).run d = .ok rows → rows ≠ []) (id : Nat) :
    Avoids d bad (serializeValue H S settings options nested model id name field value) := by
  unfold serializeValue
  cases htype : field.type with
  | many2one => exact avoids_serializeMany2one h field (htype ▸ hvalue) hnested hone
  | one2many => exact avoids_serializeX2many (htype ▸ hvalue) hnested
  | many2many =>
    have hadmits : ∀ type, bad (.raised (.python type)) → FieldType.many2many.Admits value :=
      htype ▸ hvalue
    exact avoids_serializeX2many hadmits hnested
  | datetime => exact avoids_value fun e => not_bad_of_datetime (htype ▸ hvalue)
  | date => exact avoids_value fun e => not_bad_of_date (htype ▸ hvalue)
  | binary => exact avoids_value fun e => not_bad_of_binary (htype ▸ hvalue)
  | monetary =>
    exact Avoids.bind (avoids_serializeMonetary h hfield id value) fun v _ => avoids_pure _
  | selection | float | other => exact avoids_pure _

/-- **What a record raises.**  Induction on the specification: past validation a record raises what
reading raises. -/
theorem avoids_recordUnchecked (h : Spared d bad) {s : Specification} {model : String}
    (hvalid : validateSpecification S s model = .ok ()) (id : Nat) :
    Avoids d bad (recordUnchecked H S settings options s model id) := by
  induction s generalizing model id with
  | nil => exact avoids_pure []
  | field name nested rest ihNested ihRest =>
    obtain ⟨field, hfield, hrest, hnested⟩ := validate_field hvalid
    unfold recordUnchecked
    split
    · rw [hfield]
      refine Avoids.bind (fun e he => h.read _ _ _ e he) fun value hread => ?_
      refine Avoids.bind (avoids_serializeValue h hfield
        (fun type htype => h.typed type htype _ _ _ _ _ hfield hread) ?_ ?_ id) fun out _ =>
          Avoids.bind (ihRest hrest id) fun row _ => avoids_pure _
      · intro f hf ids
        split at hf
        · cases hf
        · next hne =>
          cases hf
          exact avoids_mapM (fun id => ihNested (hnested (by simpa using hne)).2 id) ids
      · intro f id rows hf hrows hnil
        split at hf
        · cases hf
        · cases hf
          have hall := forall₂_of_mapM hrows
          rw [hnil] at hall
          cases hall
    · exact ihRest hrest id

/-! ## What is returned -/

/-- The records whose dictionaries a relational field is given in place of a value. -/
def expanded (options : Options) (nested : Specification) (field : Field) (value : Value) :
    Option (Nat ⊕ List Nat) :=
  if nested.isEmpty then none
  else match field.type with
    | .many2one =>
      match value with
      | .record (some id) => if options.m2o.isStr "id" then none else some (.inl id)
      | _ => none
    | .one2many | .many2many =>
      match value with
      | .records ids => some (.inr ids)
      | _ => none
    | _ => none

/-- A value, the dictionary of the related record, or one for each of the related records in their
order. -/
def OutOf (row : Nat → Row → Prop) (records : Option (Nat ⊕ List Nat)) (out : Out) : Prop :=
  match records with
  | none => ∃ v, out = .value v
  | some (.inl id) => ∃ r, out = .record r ∧ row id r
  | some (.inr ids) => ∃ rows, out = .records rows ∧ List.Forall₂ row ids rows

/-- A dictionary of the record: its readable requested fields, each with what it reads there. -/
def RowOf (options : Options) (d : Reading S) : Specification → String → Nat → Row → Prop
  | .nil, _, _, row => row = []
  | .field name nested rest, model, id, row =>
    if S.readable model name then
      ∃ field value out tail, S.fields model name = some field ∧ d.read model id name = .ok value ∧
        row = (name, out) :: tail ∧
        OutOf (fun id row => RowOf options d nested field.comodel id row)
          (expanded options nested field value) out ∧
        RowOf options d rest model id tail
    else RowOf options d rest model id row

theorem outOf_value {x : Reads S Value} {out : Out} {row : Nat → Row → Prop}
    (h : (do return Out.value (← x) : Reads S Out).run d = .ok out) : OutOf row none out := by
  obtain ⟨v, -, h⟩ := run_bind_ok h
  cases h
  exact ⟨v, rfl⟩

section

variable {s : Specification} {field : Field} {value : Value} {out : Out} {record : Nat → Reads S Row}

theorem outOf_serializeMany2one (htype : field.type = .many2one)
    (h : (serializeMany2one S options (if s.isEmpty then none else some fun ids => ids.mapM record)
      field value).run d = .ok out) :
    OutOf (fun id row => (record id).run d = .ok row) (expanded options s field value) out := by
  unfold serializeMany2one at h
  split at h
  · split at h
    · next id _ =>
      split at h
      · next hm2o =>
        cases h
        have hnone : expanded options s field (.record (some id)) = none := by
          simp [expanded, htype, hm2o]
        rw [hnone]
        exact ⟨_, rfl⟩
      · next hm2o =>
        cases hempty : s.isEmpty with
        | true =>
          rw [hempty] at h
          obtain ⟨text, -, h⟩ := run_bind_ok h
          cases h
          rw [expanded, if_pos hempty]
          exact ⟨_, rfl⟩
        | false =>
          rw [hempty] at h
          obtain ⟨rows, hrows, h⟩ := run_bind_ok h
          have hsome : expanded options s field (.record (some id)) = some (.inl id) := by
            simp [expanded, htype, hm2o, hempty]
          rw [hsome]
          cases forall₂_of_mapM hrows with
          | cons hrow hnil =>
            cases h
            exact ⟨_, rfl, hrow⟩
    · cases h
  · next hfalsy =>
    cases h
    have hnone : expanded options s field value = none := by
      cases value with
      | record id =>
        cases id with
        | none => simp [expanded, htype]
        | some id => exact absurd rfl hfalsy
      | _ => simp [expanded, htype]
    rw [hnone]
    exact ⟨_, rfl⟩

theorem outOf_serializeX2many (htype : field.type = .one2many ∨ field.type = .many2many)
    (h : (serializeX2many S (if s.isEmpty then none else some fun ids => ids.mapM record)
      value).run d = .ok out) :
    OutOf (fun id row => (record id).run d = .ok row) (expanded options s field value) out := by
  unfold serializeX2many at h
  split at h
  · next ids =>
    cases hempty : s.isEmpty with
    | true =>
      rw [hempty] at h
      cases h
      rw [expanded, if_pos hempty]
      exact ⟨_, rfl⟩
    | false =>
      rw [hempty] at h
      obtain ⟨rows, hrows, h⟩ := run_bind_ok h
      cases h
      have hexpanded : expanded options s field (.records ids) = some (.inr ids) := by
        rcases htype with htype | htype <;> simp [expanded, htype, hempty]
      rw [hexpanded]
      exact ⟨rows, rfl, forall₂_of_mapM hrows⟩
  · cases h

theorem outOf_serializeValue {model name : String} {id : Nat}
    (h : (serializeValue H S settings options
      (if s.isEmpty then none else some fun ids => ids.mapM record) model id name field
      value).run d = .ok out) :
    OutOf (fun id row => (record id).run d = .ok row) (expanded options s field value) out := by
  unfold serializeValue at h
  cases htype : field.type with
  | many2one =>
    rw [htype] at h
    exact outOf_serializeMany2one htype h
  | one2many =>
    rw [htype] at h
    exact outOf_serializeX2many (Or.inl htype) h
  | many2many =>
    rw [htype] at h
    exact outOf_serializeX2many (Or.inr htype) h
  | datetime | date | binary | monetary =>
    rw [htype] at h
    have hnone : expanded options s field value = none := by simp [expanded, htype]
    rw [hnone]
    exact outOf_value h
  | selection | float | other =>
    rw [htype] at h
    cases h
    have hnone : expanded options s field value = none := by simp [expanded, htype]
    rw [hnone]
    exact ⟨_, rfl⟩

end

theorem OutOf.imp {row row' : Nat → Row → Prop} (himp : ∀ id r, row id r → row' id r)
    {records : Option (Nat ⊕ List Nat)} {out : Out} (h : OutOf row records out) :
    OutOf row' records out := by
  match records, h with
  | none, h => exact h
  | some (.inl id), ⟨r, hout, hr⟩ => exact ⟨r, hout, himp id r hr⟩
  | some (.inr ids), ⟨rows, hout, hrows⟩ => exact ⟨rows, hout, hrows.imp himp⟩

/-- The dictionaries it holds. -/
theorem OutOf.rows {row : Nat → Row → Prop} {P : Row → Prop} (himp : ∀ id r, row id r → P r)
    {records : Option (Nat ⊕ List Nat)} {out : Out} (h : OutOf row records out) :
    ∀ r ∈ out.rows, P r := by
  match records, h with
  | none, ⟨v, hout⟩ =>
    rw [hout]
    exact fun r hr => nomatch hr
  | some (.inl id), ⟨row', hout, hrow⟩ =>
    rw [hout]
    intro r hr
    rw [List.mem_singleton.mp hr]
    exact himp id row' hrow
  | some (.inr ids), ⟨rows, hout, hrows⟩ =>
    rw [hout]
    intro r hr
    exact (forall_mem_iff_of_forall₂ (fun id r hrow => iff_true_intro (himp id r hrow)) hrows).mpr
      (fun _ _ => trivial) r hr

/-- **One field of a record.**  A readable one is read, serialized and put first; another is left
out. -/
theorem run_recordUnchecked_field {name : String} {nested rest : Specification} {model : String}
    {id : Nat} {row : Row}
    (h : (recordUnchecked H S settings options (.field name nested rest) model id).run d =
      .ok row) :
    (S.readable model name = true ∧ ∃ field value out tail, S.fields model name = some field ∧
      d.read model id name = .ok value ∧
      (serializeValue H S settings options
        (if nested.isEmpty then none
          else some fun ids => ids.mapM (recordUnchecked H S settings options nested field.comodel))
        model id name field value).run d = .ok out ∧
      (recordUnchecked H S settings options rest model id).run d = .ok tail ∧
      row = (name, out) :: tail) ∨
    (¬ S.readable model name = true ∧
      (recordUnchecked H S settings options rest model id).run d = .ok row) := by
  unfold recordUnchecked at h
  split at h
  · next hreadable =>
    split at h
    · cases h
    · next field hfield =>
      obtain ⟨value, hvalue, h⟩ := run_bind_ok h
      obtain ⟨out, hout, h⟩ := run_bind_ok h
      obtain ⟨tail, htail, h⟩ := run_bind_ok h
      cases h
      exact Or.inl ⟨hreadable, field, value, out, tail, hfield, hvalue, hout, htail, rfl⟩
  · next hreadable => exact Or.inr ⟨hreadable, h⟩

/-- **What a record returns.**  Induction on the specification: the dictionary of the record, with
one dictionary for each related record at every level. -/
theorem rowOf_recordUnchecked {s : Specification} {model : String} {id : Nat} {row : Row}
    (h : (recordUnchecked H S settings options s model id).run d = .ok row) :
    RowOf options d s model id row := by
  induction s generalizing model id row with
  | nil =>
    cases h
    rfl
  | field name nested rest ihNested ihRest =>
    unfold RowOf
    rcases run_recordUnchecked_field h with
      ⟨hreadable, field, value, out, tail, hfield, hvalue, hout, htail, rfl⟩ | ⟨hreadable, h⟩
    · rw [if_pos hreadable]
      exact ⟨field, value, out, tail, hfield, hvalue, rfl,
        (outOf_serializeValue hout).imp fun id r hr => ihNested hr, ihRest htail⟩
    · rw [if_neg hreadable]
      exact ihRest h

end

end SsiRest.Serializer
