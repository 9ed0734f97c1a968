import SsiRestApi.Serializer.Typing

/-!
# Plain data

The branches of `_serialize_value` make plain data of relations, dates, binaries and
numbers.  A field of any other type is returned as it is read: reading a `reference` that
is set gives a record, and a `properties` may be an object of Odoo's own.

    every value is plain data ↔ no record that is serialized has a requested, readable
      `reference` that is set, or `properties` that are such an object
                                                                    (plainData_iff)
-/

namespace SsiRest.Serializer

open Py Observe

/-! ## Plain outputs -/

/-- A value of JSON, or the bytes of a binary. -/
inductive PlainValue : Value → Prop where
  | json {v : Json} (h : Plain v) : PlainValue (.json v)
  | bytes (ascii : String) : PlainValue (.bytes ascii)

/-- Plain data at every depth. -/
inductive PlainOut : Out → Prop where
  | value {v : Value} (h : PlainValue v) : PlainOut (.value v)
  | record {row : Row} (h : ∀ f ∈ row, PlainOut f.2) : PlainOut (.record row)
  | records {rows : List Row} (h : ∀ row ∈ rows, ∀ f ∈ row, PlainOut f.2) : PlainOut (.records rows)

def PlainRow (row : Row) : Prop := ∀ f ∈ row, PlainOut f.2

/-- How a relation appears: by ids, a pair of an id and a name, or nested dictionaries. -/
def RelationalOut : Out → Prop
  | .value v => v = .false ∨ (∃ id : Nat, v = .json (.int id)) ∨
      (∃ ids : List Nat, v = .json (.arr (ids.map fun id => .int id))) ∨
      ∃ (id : Nat) (name : String), v = .json (.obj [("id", .int id), ("display_name", .str name)])
  | .record _ | .records _ => True

/-- Every relation of a row and of the rows nested in it appears so. -/
def RelationsShown (S : Schema) : Specification → String → Row → Prop
  | .nil, _, _ => True
  | .field name nested rest, model, row =>
    if S.readable model name then
      ∃ field out tail, S.fields model name = some field ∧ row = (name, out) :: tail ∧
        (field.type.relational = true → RelationalOut out) ∧
        (∀ r ∈ out.rows, RelationsShown S nested field.comodel r) ∧ RelationsShown S rest model tail
    else RelationsShown S rest model row

/-- Rounding a number gives a number. -/
structure Host.RoundsPlain (H : Host) : Prop where
  round : ∀ v digits, Plain v → ∃ w, H.round (.json v) digits = .json w ∧ Plain w
  floatRound : ∀ v rounding, Plain v → ∃ w, H.floatRound (.json v) rounding = .json w ∧ Plain w

/-- The records whose dictionaries are given. -/
def expandedIds : Option (Nat ⊕ List Nat) → List Nat
  | none => []
  | some (.inl id) => [id]
  | some (.inr ids) => ids

/-- The value is returned as it is read and no plain data: a `reference` that is set, or the
`properties` where they are an object of Odoo's own. -/
def FieldType.Leaks : FieldType → Value → Prop
  | .other "reference", value => value.truthy = true
  | .other "properties", value => ¬ PlainValue value
  | _, _ => False

/-- A requested and readable field leaks, of the record or of one that is nested in it. -/
def Leaks {S : Schema} (options : Options) (d : Reading S) : Specification → String → Nat → Prop
  | .nil, _, _ => False
  | .field name nested rest, model, id =>
    (S.readable model name = true ∧ ∃ field value, S.fields model name = some field ∧
      d.read model id name = .ok value ∧
        (field.type.Leaks value ∨
          ∃ related ∈ expandedIds (expanded options nested field value),
            Leaks options d nested field.comodel related)) ∨
    Leaks options d rest model id

/-! ## Values -/

theorem plain_false : PlainValue .false := .json (.bool false)

theorem plainValue_datetime {value v : Value} (h : serializeDatetime value = .ok v) :
    PlainValue v := by
  unfold serializeDatetime at h
  split at h
  · split at h <;> cases h
    exact .json (.str _)
  · cases h
    exact plain_false

theorem plainValue_date {value v : Value} (h : serializeDate value = .ok v) : PlainValue v := by
  unfold serializeDate at h
  split at h
  · split at h <;> cases h
    · exact .json (.str _)
    · exact .json (.str _)
  · cases h
    exact plain_false

/-- The description of a binary is plain. -/
theorem plain_description {size checksum url : Json} (hsize : Plain size)
    (hchecksum : Plain checksum) (hurl : Plain url) :
    PlainValue (.json (.obj [("size", size), ("checksum", checksum), ("url", url)])) := by
  refine .json (.obj ?_)
  simp [hsize, hchecksum, hurl]

section

variable {H : Host} {S : Schema} {settings : Settings} {options : Options} {d : Reading S}

theorem plainValue_binary {value v : Value} (hvalue : FieldType.binary.Admits value)
    (h : serializeBinary H options value = .ok v) : PlainValue v := by
  unfold serializeBinary at h
  split at h
  · cases h
    split
    · rcases hvalue with rfl | ⟨ascii, data, rfl, -⟩
      · exact plain_false
      · exact .bytes ascii
    · exact plain_false
  · split at h
    · split at h
      · split at h <;> cases h
        exact plain_description (.int _) (.str _) (.bool _)
      · cases h
    · cases h
      exact plain_description (.int _) (.bool _) (.bool _)

theorem plainValue_selection {v : Json} (hv : Plain v) (labels : List (String × String)) :
    PlainValue (serializeSelection options labels (.json v)) := by
  unfold serializeSelection
  split
  · refine .json (.obj fun f hf => ?_)
    rcases List.mem_cons.mp hf with rfl | hf
    · exact hv
    · rw [List.mem_singleton.mp hf]
      clear hf
      dsimp only
      split
      · next text =>
        cases labels.lookup text with
        | none => exact .null
        | some label => exact .str label
      · exact .null
  · exact .json hv

theorem plainValue_float (hH : H.RoundsPlain) {v : Json} (hv : Plain v) (field : Field) :
    PlainValue (serializeFloat H settings field (.json v)) := by
  unfold serializeFloat
  split
  · next digits _ =>
    obtain ⟨w, hw, hplain⟩ := hH.round v digits hv
    rw [hw]
    exact .json hplain
  · exact .json hv

theorem plainValue_currencyRound (hH : H.RoundsPlain) {v : Json} (hv : Plain v) {currency : Nat}
    {w : Value} (h : (currencyRound H S currency (.json v)).run d = .ok w) : PlainValue w := by
  obtain ⟨rounding, -, h⟩ := run_bind_ok h
  cases h
  obtain ⟨w, hw, hplain⟩ := hH.floatRound v rounding hv
  rw [hw]
  exact .json hplain

theorem plainValue_monetary (hH : H.RoundsPlain) {v : Json} (hv : Plain v) {model : String} {id : Nat}
    {field : Field} {w : Value}
    (h : (serializeMonetary H S settings model id field (.json v)).run d = .ok w) :
    PlainValue w := by
  obtain ⟨currency, -, h⟩ := run_bind_ok h
  split at h
  · split at h
    · exact plainValue_currencyRound hH hv h
    · cases h
  · split at h
    · exact plainValue_currencyRound hH hv h
    · cases h
      exact .json hv

/-! ## Relations -/

theorem plainValue_of_relationalOut {v : Value} (h : RelationalOut (.value v)) : PlainValue v := by
  rcases h with rfl | ⟨id, rfl⟩ | ⟨ids, rfl⟩ | ⟨id, name, rfl⟩
  · exact plain_false
  · exact .json (.int _)
  · refine .json (.arr ?_)
    simp only [List.mem_map]
    rintro item ⟨id, -, rfl⟩
    exact .int _
  · refine .json (.obj ?_)
    simp [Plain.int, Plain.str]

variable {nested : Option (List Nat → Reads S (List Row))}

theorem relationalOut_many2one {field : Field} {value : Value} {out : Out}
    (h : (serializeMany2one S options nested field value).run d = .ok out) : RelationalOut out := by
  unfold serializeMany2one at h
  split at h
  · split at h
    · split at h
      · cases h
        exact Or.inr (Or.inl ⟨_, rfl⟩)
      · split at h
        · obtain ⟨rows, -, h⟩ := run_bind_ok h
          split at h <;> cases h
          trivial
        · obtain ⟨name, -, h⟩ := run_bind_ok h
          cases h
          exact Or.inr (Or.inr (Or.inr ⟨_, name, rfl⟩))
    · cases h
  · cases h
    exact Or.inl rfl

theorem relationalOut_x2many {value : Value} {out : Out}
    (h : (serializeX2many S nested value).run d = .ok out) : RelationalOut out := by
  unfold serializeX2many at h
  split at h
  · split at h
    · cases h
      exact Or.inr (Or.inr (Or.inl ⟨_, rfl⟩))
    · obtain ⟨rows, -, h⟩ := run_bind_ok h
      cases h
      trivial
  · cases h

/-! ## Fields -/

/-- A relation is shown, a field of a type without a branch is returned as it is, anything else is
plain. -/
def FieldOut (field : Field) (value : Value) (out : Out) : Prop :=
  (field.type.relational = true ∧ RelationalOut out) ∨
    (∃ type, field.type = .other type ∧ out = .value value) ∨
    (field.type.relational = false ∧ (∀ type, field.type ≠ .other type) ∧
      ∃ v, out = .value v ∧ PlainValue v)

/-- **One field.** -/
theorem serializeValue_cases (hH : H.RoundsPlain) {model name : String} {id : Nat} {field : Field}
    {value : Value} (hvalue : field.type.Admits value) {out : Out}
    (h : (serializeValue H S settings options nested model id name field value).run d = .ok out) :
    FieldOut field value out := by
  unfold serializeValue at h
  unfold FieldOut
  cases htype : field.type with
  | many2one =>
    rw [htype] at h
    exact Or.inl ⟨rfl, relationalOut_many2one h⟩
  | one2many | many2many =>
    rw [htype] at h
    exact Or.inl ⟨rfl, relationalOut_x2many h⟩
  | datetime =>
    rw [htype] at h
    obtain ⟨v, hv, h⟩ := run_bind_ok h
    cases h
    exact Or.inr (Or.inr ⟨rfl, fun _ => nofun, v, rfl, plainValue_datetime hv⟩)
  | date =>
    rw [htype] at h
    obtain ⟨v, hv, h⟩ := run_bind_ok h
    cases h
    exact Or.inr (Or.inr ⟨rfl, fun _ => nofun, v, rfl, plainValue_date hv⟩)
  | binary =>
    rw [htype] at h hvalue
    obtain ⟨v, hv, h⟩ := run_bind_ok h
    cases h
    exact Or.inr (Or.inr ⟨rfl, fun _ => nofun, v, rfl, plainValue_binary hvalue hv⟩)
  | selection =>
    rw [htype] at h hvalue
    obtain ⟨v, rfl, hv⟩ := hvalue
    cases h
    exact Or.inr (Or.inr ⟨rfl, fun _ => nofun, _, rfl, plainValue_selection hv _⟩)
  | monetary =>
    rw [htype] at h hvalue
    obtain ⟨v, rfl, hv⟩ := hvalue
    obtain ⟨w, hw, h⟩ := run_bind_ok h
    cases h
    exact Or.inr (Or.inr ⟨rfl, fun _ => nofun, w, rfl, plainValue_monetary hH hv hw⟩)
  | float =>
    rw [htype] at h hvalue
    obtain ⟨v, rfl, hv⟩ := hvalue
    cases h
    exact Or.inr (Or.inr ⟨rfl, fun _ => nofun, _, rfl, plainValue_float hH hv field⟩)
  | other type =>
    rw [htype] at h
    cases h
    exact Or.inr (Or.inl ⟨type, rfl, rfl⟩)

theorem not_plainOut_record {id : Option Nat} : ¬ PlainOut (.value (.record id)) := by
  intro h
  cases h with
  | value h => cases h

theorem plainOut_record {row : Row} : PlainOut (.record row) ↔ PlainRow row := by
  refine ⟨fun h => ?_, PlainOut.record⟩
  cases h with
  | record h => exact h

theorem plainOut_records {rows : List Row} :
    PlainOut (.records rows) ↔ ∀ row ∈ rows, PlainRow row := by
  refine ⟨fun h => ?_, PlainOut.records⟩
  cases h with
  | records h => exact h

/-- Only a relation is given dictionaries. -/
theorem relational_of_expanded {s : Specification} {field : Field} {value : Value}
    {records : Nat ⊕ List Nat} (h : expanded options s field value = some records) :
    field.type.relational = true := by
  unfold expanded at h
  split at h
  · cases h
  · split at h
    · next htype => rw [htype]; rfl
    · next htype => rw [htype]; rfl
    · next htype => rw [htype]; rfl
    · cases h

theorem plainOut_value {v : Value} : PlainOut (.value v) ↔ PlainValue v := by
  refine ⟨fun h => ?_, PlainOut.value⟩
  cases h with
  | value h => exact h

theorem admits_other {type : String} (hreference : type ≠ "reference")
    (hproperties : type ≠ "properties") {value : Value}
    (hvalue : (FieldType.other type).Admits value) : ∃ v, value = .json v ∧ Plain v := by
  unfold FieldType.Admits at hvalue
  split at hvalue
  all_goals first | exact hvalue | simp_all

/-- Only fields of two types leak. -/
theorem other_of_leaks {type : FieldType} {value : Value} (h : type.Leaks value) :
    type = .other "reference" ∨ type = .other "properties" := by
  unfold FieldType.Leaks at h
  split at h
  · exact Or.inl rfl
  · exact Or.inr rfl
  · cases h

theorem relational_of_leaks {type : FieldType} {value : Value} (h : type.Leaks value) :
    type.relational = false := by
  rcases other_of_leaks h with rfl | rfl
  · rfl
  · rfl

/-- What is returned as it is read is plain unless it leaks. -/
theorem plainValue_other_iff {type : String} {value : Value}
    (hvalue : (FieldType.other type).Admits value) :
    PlainValue value ↔ ¬ (FieldType.other type).Leaks value := by
  by_cases hreference : type = "reference"
  · subst hreference
    rcases hvalue with rfl | ⟨id, rfl⟩
    · exact iff_of_true plain_false fun h => nomatch h
    · exact iff_of_false (fun h => nomatch h) fun h => h rfl
  · by_cases hproperties : type = "properties"
    · subst hproperties
      exact not_not.symm
    · obtain ⟨v, rfl, hv⟩ := admits_other hreference hproperties hvalue
      refine iff_of_true (.json hv) fun h => ?_
      rcases other_of_leaks h with htype | htype
      · exact hreference (FieldType.other.inj htype)
      · exact hproperties (FieldType.other.inj htype)

/-- A value that is no dictionary of a record is plain unless it leaks. -/
theorem plainOut_value_iff {field : Field} {value v : Value} (hvalue : field.type.Admits value)
    (h : FieldOut field value (.value v)) : PlainOut (.value v) ↔ ¬ field.type.Leaks value := by
  rcases h with ⟨hrelational, hshown⟩ | ⟨type, htype, hout⟩ | ⟨-, hbranch, w, hout, hplain⟩
  · refine iff_of_true (.value (plainValue_of_relationalOut hshown)) fun hleaks => ?_
    rw [relational_of_leaks hleaks] at hrelational
    cases hrelational
  · rw [htype] at hvalue ⊢
    rw [hout, plainOut_value]
    exact plainValue_other_iff hvalue
  · rw [hout]
    refine iff_of_true (.value hplain) fun hleaks => ?_
    rcases other_of_leaks hleaks with htype | htype
    · exact hbranch _ htype
    · exact hbranch _ htype

/-- **One field.**  It is plain unless it leaks or a related record does. -/
theorem plainOut_iff (hH : H.RoundsPlain) {s : Specification} {model name : String} {id : Nat}
    {field : Field} {value : Value} (hvalue : field.type.Admits value) {record : Nat → Reads S Row}
    {leaks : Nat → Prop}
    (hrecord : ∀ id row, (record id).run d = .ok row → (PlainRow row ↔ ¬ leaks id)) {out : Out}
    (h : (serializeValue H S settings options
      (if s.isEmpty then none else some fun ids => ids.mapM record) model id name field
      value).run d = .ok out) :
    PlainOut out ↔ ¬ (field.type.Leaks value ∨
      ∃ related ∈ expandedIds (expanded options s field value), leaks related) := by
  have hcases := serializeValue_cases hH hvalue h
  have hout := outOf_serializeValue h
  have hnot : ∀ records, expanded options s field value = some records →
      ¬ field.type.Leaks value := fun records hrecords hleaks => by
    have hrelational := relational_of_expanded hrecords
    rw [relational_of_leaks hleaks] at hrelational
    cases hrelational
  cases hexpanded : expanded options s field value with
  | none =>
    rw [hexpanded] at hout
    obtain ⟨v, rfl⟩ := hout
    rw [plainOut_value_iff hvalue hcases]
    simp [expandedIds]
  | some records =>
    rw [or_iff_right (hnot records hexpanded)]
    rw [hexpanded] at hout
    cases records with
    | inl id =>
      obtain ⟨row, rfl, hrow⟩ := hout
      rw [plainOut_record, hrecord id row hrow]
      simp [expandedIds]
    | inr ids =>
      obtain ⟨rows, rfl, hrows⟩ := hout
      rw [plainOut_records, forall_mem_iff_of_forall₂ hrecord hrows]
      simp [expandedIds]

/-! ## Records -/

/-- **One record.**  Induction on the specification: plain exactly when nothing leaks. -/
theorem plainRow_iff (hH : H.RoundsPlain) (hd : WellTyped d) {s : Specification} {model : String}
    {id : Nat} {row : Row} (h : (recordUnchecked H S settings options s model id).run d = .ok row) :
    PlainRow row ↔ ¬ Leaks options d s model id := by
  induction s generalizing model id row with
  | nil =>
    cases h
    exact iff_of_true (fun f hf => nomatch hf) fun h => h
  | field name nested rest ihNested ihRest =>
    rw [Leaks, not_or]
    rcases run_recordUnchecked_field h with
      ⟨hreadable, field, value, out, tail, hfield, hvalue, hout, htail, rfl⟩ | ⟨hreadable, h⟩
    · have hplain := plainOut_iff hH (hd _ _ _ _ _ hfield hvalue)
        (fun related row hrow => ihNested hrow) hout
      rw [PlainRow, List.forall_mem_cons, hplain, ← PlainRow, ihRest htail]
      refine and_congr_left fun _ => not_congr ⟨fun h => ?_, fun h => ?_⟩
      · exact ⟨hreadable, field, value, hfield, hvalue, h⟩
      · obtain ⟨-, field', value', hfield', hvalue', h⟩ := h
        cases hfield.symm.trans hfield'
        cases hvalue.symm.trans hvalue'
        exact h
    · rw [ihRest h]
      exact (and_iff_right fun h => hreadable h.1).symm

/-- **One record.**  Induction on the specification: every relation is shown. -/
theorem relationsShown_recordUnchecked (hH : H.RoundsPlain) (hd : WellTyped d) {s : Specification}
    {model : String} {id : Nat} {row : Row}
    (h : (recordUnchecked H S settings options s model id).run d = .ok row) :
    RelationsShown S s model row := by
  induction s generalizing model id row with
  | nil => trivial
  | field name nested rest ihNested ihRest =>
    unfold RelationsShown
    rcases run_recordUnchecked_field h with
      ⟨hreadable, field, value, out, tail, hfield, hvalue, hout, htail, rfl⟩ | ⟨hreadable, h⟩
    · rw [if_pos hreadable]
      refine ⟨field, out, tail, hfield, rfl, ?_, ?_, ihRest htail⟩
      · intro hrelational
        rcases serializeValue_cases hH (hd _ _ _ _ _ hfield hvalue) hout with
          ⟨-, hshown⟩ | ⟨_, htype, -⟩ | ⟨hnot, -⟩
        · exact hshown
        · rw [htype] at hrelational
          cases hrelational
        · rw [hnot] at hrelational
          cases hrelational
      · exact (outOf_serializeValue hout).rows fun related row hrow => ihNested hrow
    · rw [if_neg hreadable]
      exact ihRest h

end

/-- **Plain data.**  What is serialized is plain data with every relation shown, at every depth,
exactly when no record has a requested and readable `reference` that is set. -/
theorem plainData_iff (H : Host) (S : Schema) (settings : Settings) (options : Options)
    (s : Specification) (model : String) (ids : List Nat) (d : Reading S) (hH : H.RoundsPlain)
    (hd : WellTyped d) (rows : List Row)
    (h : (serialize H S settings options s model ids).run d = .ok rows) :
    (∀ row ∈ rows, PlainRow row ∧ RelationsShown S s model row) ↔
      ∀ id ∈ ids, ¬ Leaks options d s model id := by
  cases hvalid : validateSpecification S s model with
  | error e =>
    rw [serialize, serializeRecords, hvalid] at h
    cases h
  | ok =>
    rw [serialize_eq_mapM hvalid] at h
    refine forall_mem_iff_of_forall₂ (fun id row hrow => ?_) (forall₂_of_mapM h)
    rw [plainRow_iff hH hd hrow]
    exact and_iff_left (relationsShown_recordUnchecked hH hd hrow)

/-! ## A note -/

/-- The fields of a note: its name, its author and the record it is about. -/
def noteFields (name : String) : Option Field :=
  if name = "name" then some { type := .other "char" }
  else if name = "user_id" then some { type := .many2one, comodel := "res.users" }
  else if name = "record" then some { type := .other "reference" }
  else if name = "rounding" then some { type := .float }
  else none

def noteSchema : Schema where
  fields _ name := noteFields name
  readable _ _ := true
  currency_many2one := by
    intro model name field currencyField hfield hcurrency
    unfold noteFields at hfield
    split_ifs at hfield <;> cases hfield <;> cases hcurrency
  rounding_readable := rfl

/-- Note 1 is about record 4, any other note about none. -/
def notes : Reading noteSchema where
  read _ id name :=
    if name = "user_id" then .ok (.record (some 2))
    else if name = "record" then .ok (if id = 1 then .record (some 4) else .false)
    else if name = "rounding" then .ok (.json (.int 1))
    else .ok (.json (.str "Call back"))
  displayName _ _ := .ok "Ada"
  read_readable := by
    intro model id field e _ h
    split_ifs at h
  displayName_readable := by
    intro model id e h
    cases h

/-- The name of the author and the record of a note. -/
def noteSpecification : Specification :=
  .field "user_id" (.field "name" .nil .nil) (.field "record" .nil .nil)

theorem roundsPlain_orderHost : orderHost.RoundsPlain where
  round v _ hv := ⟨v, rfl, hv⟩
  floatRound v rounding hv := by
    unfold orderHost
    dsimp only
    split
    · exact ⟨_, rfl, .int _⟩
    · exact ⟨v, rfl, hv⟩

theorem wellTyped_notes : WellTyped notes := by
  intro model id name field value hfield hread
  unfold notes at hread
  unfold noteSchema noteFields at hfield
  dsimp only at hread hfield
  by_cases hrecord : name = "record"
  · subst hrecord
    cases hfield
    rw [if_neg (by decide), if_pos rfl] at hread
    cases hread
    split
    · exact Or.inr ⟨4, rfl⟩
    · exact Or.inl rfl
  · rw [if_neg hrecord] at hread hfield
    split_ifs at hread hfield <;> cases hread <;> cases hfield
    all_goals first | exact ⟨_, rfl⟩ | exact ⟨_, rfl, .int _⟩ | exact ⟨_, rfl, .str _⟩ | simp_all

theorem plainData_note :
    (∀ row ∈ [[("user_id", Out.record [("name", .value (.json (.str "Call back")))]),
        ("record", .value Value.false)]],
      PlainRow row ∧ RelationsShown noteSchema noteSpecification "note" row) ↔
      ∀ id ∈ [2], ¬ Leaks {} notes noteSpecification "note" id :=
  plainData_iff orderHost noteSchema orderSettings {} noteSpecification "note" [2] notes
    roundsPlain_orderHost wellTyped_notes _ rfl

/-- The record of a note is returned as it is read. -/
theorem not_plainRow_note :
    let row : Row := [("user_id", .record [("name", .value (.json (.str "Call back")))]),
      ("record", .value (.record (some 4)))]
    WellTyped notes ∧ (serialize orderHost noteSchema orderSettings {} noteSpecification "note"
      [1]).run notes = .ok [row] ∧ ¬ PlainRow row := by
  intro row
  refine ⟨wellTyped_notes, rfl, fun h => ?_⟩
  exact not_plainOut_record (h ("record", _) (List.mem_cons_of_mem _ (List.mem_singleton_self _)))

end SsiRest.Serializer
