import SsiRestApi.Serializer.Restricted

/-!
# Specifications as they are sent

A specification is any dictionary until it is validated.  `_validate_specification` and
`_serialize_record` take what they find in it for dictionaries and fail on other values:
`(field_spec or {}).get("fields")` on a node that has no `get`, and `specification.items()`
on `fields` that has no `items`.

    past validation it is a specification, and serializes as one   (serializeRaw_eq_serialize)
-/

namespace SsiRest.Serializer

open Py Observe

/-! ## Dictionaries -/

/-- A dictionary as the serializer walks it. -/
inductive RawSpecification where
  | nil
  /-- A field whose node is a dictionary or empty, with the `fields` of the node. -/
  | field (name : String) (fields : RawSpecification) (rest : RawSpecification)
  /-- A field whose node is neither a dictionary nor empty. -/
  | atom (name : String) (rest : RawSpecification)
  /-- A key that is no text, as it is printed. -/
  | other (key : String) (rest : RawSpecification)
  /-- In the place of `fields`, what is neither a dictionary nor empty. -/
  | noItems

namespace RawSpecification

def isEmpty : RawSpecification → Bool
  | nil => true
  | _ => false

mutual

/-- The dictionary with these items. -/
def ofItems : List (String × Json) → RawSpecification
  | [] => nil
  | (name, node) :: rest => ofNode name node (ofItems rest)

/-- The field with this node. -/
def ofNode (name : String) : Json → RawSpecification → RawSpecification
  | .obj entries, rest => field name (ofEntries entries) rest
  | node, rest => if node.truthy then atom name rest else field name nil rest

/-- The `fields` of a node with these entries. -/
def ofEntries : List (String × Json) → RawSpecification
  | [] => nil
  | (key, nested) :: entries => if key = "fields" then ofNested nested else ofEntries entries

def ofNested : Json → RawSpecification
  | .obj items => ofItems items
  | nested => if nested.truthy then noItems else nil

end

/-- The dictionary with these items, whose keys may be any values; `str` prints them. -/
def ofPairs (str : Json → String) : List (Json × Json) → RawSpecification
  | [] => nil
  | (.str name, node) :: rest => ofNode name node (ofPairs str rest)
  | (key, _) :: rest => other (str key) (ofPairs str rest)

/-- A specification is such a dictionary. -/
def ofSpecification : Specification → RawSpecification
  | .nil => nil
  | .field name nested rest => field name (ofSpecification nested) (ofSpecification rest)

/-- The specification that is left without what is none. -/
def toSpecification : RawSpecification → Specification
  | nil | noItems => .nil
  | field name nested rest => .field name nested.toSpecification rest.toSpecification
  | atom name rest => .field name .nil rest.toSpecification
  | other _ rest => rest.toSpecification

@[simp] theorem isEmpty_ofSpecification (s : Specification) :
    (ofSpecification s).isEmpty = s.isEmpty := by
  cases s <;> rfl

@[simp] theorem toSpecification_ofSpecification (s : Specification) :
    (ofSpecification s).toSpecification = s := by
  induction s with
  | nil => rfl
  | field name nested rest ihNested ihRest =>
    rw [ofSpecification, toSpecification, ihNested, ihRest]

theorem ofPairs_eq_ofItems (str : Json → String) (items : List (String × Json)) :
    ofPairs str (items.map fun f => (.str f.1, f.2)) = ofItems items := by
  induction items with
  | nil => rw [List.map_nil, ofPairs, ofItems]
  | cons f items ih => rw [List.map_cons, ofPairs, ofItems, ih]

end RawSpecification

/-! ## Serializing -/

section

variable (H : Host) (S : Schema) (settings : Settings) (options : Options)

def unknownField (model name : String) : Failure :=
  validationError s!"Unknown field {name} on model {model}."

def notRelational (model name : String) : Failure := validationError
  s!"Field {name} on model {model} is not relational, it cannot carry a nested specification."

/-- `_validate_specification`. -/
def validateRaw : RawSpecification → String → Except Failure Unit
  | .nil, _ => .ok ()
  | .field name nested rest, model =>
    match S.fields model name with
    | none => .error (unknownField model name)
    | some field =>
      if nested.isEmpty then validateRaw rest model
      else if field.type.relational then do
        validateRaw nested field.comodel
        validateRaw rest model
      else .error (notRelational model name)
  | .atom name _, model =>
    match S.fields model name with
    | none => .error (unknownField model name)
    | some _ => .error attributeError
  | .other key _, model => .error (unknownField model key)
  | .noItems, _ => .error attributeError

/-- `_serialize_record`. -/
def recordRaw : RawSpecification → String → Nat → Reads S Row
  | .nil, _, _ => return []
  | .field name nested rest, model, id => do
    if S.readable model name then
      match S.fields model name with
      | none => throw (.raised (.python "KeyError"))
      | some field =>
        let value ← read S model id name
        let serializeRecords := fun ids => do
          let _ ← liftM (validateRaw S nested field.comodel)
          List.mapM (recordRaw nested field.comodel) ids
        let out ← serializeValue H S settings options
          (if nested.isEmpty then none else some serializeRecords) model id name field value
        let row ← recordRaw rest model id
        return (name, out) :: row
    else recordRaw rest model id
  | .atom name rest, model, id => do
    if S.readable model name then
      match S.fields model name with
      | none => throw (.raised (.python "KeyError"))
      | some field =>
        let value ← read S model id name
        let out ← serializeValue H S settings options (some fun _ => throw attributeError) model id
          name field value
        let row ← recordRaw rest model id
        return (name, out) :: row
    else recordRaw rest model id
  | .other _ rest, model, id => recordRaw rest model id
  | .noItems, _, _ => throw attributeError

/-- `_serialize_records`. -/
def serializeRaw (specification : RawSpecification) (model : String) (ids : List Nat) :
    Reads S (List Row) := do
  let _ ← liftM (validateRaw S specification model)
  ids.mapM (recordRaw H S settings options specification model)

end

/-! ## Past validation -/

variable {H : Host} {S : Schema} {settings : Settings} {options : Options}

theorem validateRaw_ofSpecification (s : Specification) (model : String) :
    validateRaw S (.ofSpecification s) model = validateSpecification S s model := by
  induction s generalizing model with
  | nil => rfl
  | field name nested rest ihNested ihRest =>
    rw [RawSpecification.ofSpecification, validateRaw, validateSpecification]
    simp only [RawSpecification.isEmpty_ofSpecification, ihNested, ihRest]
    rfl

theorem recordRaw_ofSpecification (s : Specification) (model : String) (id : Nat) :
    recordRaw H S settings options (.ofSpecification s) model id =
      serializeRecord H S settings options s model id := by
  induction s generalizing model id with
  | nil => rfl
  | field name nested rest ihNested ihRest =>
    have hnested : recordRaw H S settings options (.ofSpecification nested) =
        serializeRecord H S settings options nested :=
      funext fun model => funext fun id => ihNested model id
    rw [RawSpecification.ofSpecification, recordRaw, serializeRecord]
    cases S.fields model name with
    | none => simp only [ihRest]
    | some field =>
      simp only [RawSpecification.isEmpty_ofSpecification, validateRaw_ofSpecification, hnested,
        ihRest]

/-- A specification serializes as the dictionary it is. -/
theorem serializeRaw_ofSpecification (s : Specification) (model : String) (ids : List Nat) :
    serializeRaw H S settings options (.ofSpecification s) model ids =
      serialize H S settings options s model ids := by
  have hrecord : recordRaw H S settings options (.ofSpecification s) model =
      serializeRecord H S settings options s model :=
    funext fun id => recordRaw_ofSpecification s model id
  rw [serializeRaw, serialize, serializeRecords, validateRaw_ofSpecification, hrecord]

/-- What passes validation is a specification. -/
theorem eq_ofSpecification_of_validate {raw : RawSpecification} {model : String}
    (h : validateRaw S raw model = .ok ()) : raw = .ofSpecification raw.toSpecification := by
  induction raw generalizing model with
  | nil => rfl
  | field name nested rest ihNested ihRest =>
    unfold validateRaw at h
    rw [RawSpecification.toSpecification, RawSpecification.ofSpecification]
    split at h
    · cases h
    · next field hfield =>
      split at h
      · next hempty =>
        cases nested with
        | nil => rw [← ihRest h]; rfl
        | _ => cases hempty
      · split at h
        · cases hnested : validateRaw S nested field.comodel with
          | error e =>
            rw [hnested] at h
            cases h
          | ok u =>
            rw [hnested] at h
            rw [← ihNested hnested, ← ihRest h]
        · cases h
  | atom name rest =>
    unfold validateRaw at h
    split at h <;> cases h
  | other => cases h
  | noItems => cases h

theorem serializeRaw_eq_serialize {raw : RawSpecification} {model : String}
    (h : validateRaw S raw model = .ok ()) (ids : List Nat) :
    serializeRaw H S settings options raw model ids =
      serialize H S settings options raw.toSpecification model ids := by
  conv => lhs; rw [eq_ofSpecification_of_validate h]
  rw [serializeRaw_ofSpecification]

end SsiRest.Serializer
