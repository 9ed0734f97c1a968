import SsiRestApi.Errors
import SsiRestApi.Lib.Bytes
import SsiRestApi.Lib.Observe

/-!
# The record serializer

`ssi_rest_serializer`: records to dictionaries along a specification.  It reads the
database through the ORM of the current user, which decides what a read returns.
-/

namespace SsiRest.Serializer

open Py

/-! ## Models and values -/

inductive FieldType where
  | many2one
  | one2many
  | many2many
  | datetime
  | date
  | binary
  | selection
  | monetary
  | float
  | other (type : String)
  deriving DecidableEq

def FieldType.relational : FieldType → Bool
  | many2one | one2many | many2many => true
  | _ => false

/-- A field: `get_currency_field` gives the currency field of a monetary one, `get_digits` the
digits of a float one, which may be the name of a decimal precision. -/
structure Field where
  type : FieldType
  comodel : String := ""
  currencyField : Option String := none
  digits : Option (Nat ⊕ String) := none

/-- The models, and what `fields_get` lists for the user.  A currency field is a many2one, and
everybody reads the rounding of a currency. -/
structure Schema where
  fields : String → String → Option Field
  readable : String → String → Bool
  currency_many2one : ∀ model name field currencyField, fields model name = some field →
    field.currencyField = some currencyField →
    (fields model currencyField).map Field.type = some .many2one
  rounding_readable : readable "res.currency" "rounding" = true

structure DateTime where
  year : Nat
  month : Nat
  day : Nat
  hour : Nat
  minute : Nat
  second : Nat
  microsecond : Nat

/-- What `record[f]` is. -/
inductive Value where
  | json (v : Json)
  | datetime (d : DateTime)
  | date (year month day : Nat)
  /-- Bytes in base64, as a binary field has them. -/
  | bytes (ascii : String)
  | record (id : Option Nat)
  | records (ids : List Nat)

def Value.truthy : Value → Bool
  | json v => v.truthy
  | datetime _ | date _ _ _ => true
  | bytes ascii => ascii != ""
  | record id => id.isSome
  | records ids => !ids.isEmpty

/-- `False`. -/
def Value.false : Value := .json (.bool Bool.false)

/-- The global options of a specification. -/
structure Options where
  m2o : Json := .null
  binary : Json := .null
  labels : Json := .null

/-- A dictionary of fields with their nested fields; an entry that is `None`, `{}` or has empty
`fields` has none. -/
inductive Specification where
  | nil
  | field (name : String) (fields : Specification) (rest : Specification)

def Specification.isEmpty : Specification → Bool
  | nil => true
  | field _ _ _ => Bool.false

/-- What a field of a record becomes: a value, a dictionary for a record, or a list of them. -/
inductive Out where
  | value (v : Value)
  | record (row : List (String × Out))
  | records (rows : List (List (String × Out)))

abbrev Row := List (String × Out)

/-! ## Reading -/

/-- An exception; the `AccessError` of a field that its `groups` keep from the user is told apart. -/
inductive Failure where
  | fieldGroups (model field : String)
  | raised (e : Exn)

def Failure.IsFieldGroups : Failure → Prop
  | fieldGroups _ _ => True
  | raised _ => False

/-- What the user reads of a state of the database: `record[f]`, which fails for its groups only
where the user cannot read the field, and `display_name`. -/
structure Reading (S : Schema) where
  read : String → Nat → String → Except Failure Value
  displayName : String → Nat → Except Failure String
  read_readable : ∀ model id field e, S.readable model field = true →
    read model id field = .error e → ¬ e.IsFieldGroups
  displayName_readable : ∀ model id e, displayName model id = .error e → ¬ e.IsFieldGroups

/-- The company of the environment, decimal precisions and selection labels. -/
structure Settings where
  companyCurrency : Option Nat
  precision : String → Nat
  selection : String → String → List (String × String)

/-- `hashlib.md5(data).hexdigest()`, `round(value, digits)` and the rounding of a currency. -/
structure Host where
  md5 : List UInt8 → String
  round : Value → Nat → Value
  floatRound : Value → Value → Value

section

variable (H : Host) (S : Schema) (settings : Settings) (options : Options)

/-- A computation of the user's environment. -/
abbrev Reads (α : Type) := ReaderT (Reading S) (Except Failure) α

/-- `record[f]`. -/
def read (model : String) (id : Nat) (field : String) : Reads S Value :=
  fun d => d.read model id field

/-- `record.display_name`. -/
def displayName (model : String) (id : Nat) : Reads S String := fun d => d.displayName model id

/-! ## Validation -/

def validationError (message : String) : Failure := .raised (.userError .userError 422 message)

/-- `_validate_specification`. -/
def validateSpecification : Specification → String → Except Failure Unit
  | .nil, _ => .ok ()
  | .field name nested rest, model =>
    match S.fields model name with
    | none => .error (validationError s!"Unknown field {name} on model {model}.")
    | some field =>
      if nested.isEmpty then validateSpecification rest model
      else if field.type.relational then do
        validateSpecification nested field.comodel
        validateSpecification rest model
      else .error (validationError
        s!"Field {name} on model {model} is not relational, it cannot carry a nested specification.")

/-! ## Values -/

/-- The exception of an operation on a value of another type. -/
def attributeError : Failure := .raised (.python "AttributeError")

def pad2 (n : Nat) : String := if n < 10 then "0" ++ toString n else toString n

/-- `%Y-%m-%d`. -/
def dateText (year month day : Nat) : String :=
  toString year ++ "-" ++ pad2 month ++ "-" ++ pad2 day

/-- `_serialize_datetime`. -/
def serializeDatetime (value : Value) : Except Failure Value :=
  if value.truthy then
    match value with
    | .datetime d => .ok (.json (.str (dateText d.year d.month d.day ++ "T" ++ pad2 d.hour ++ ":" ++
        pad2 d.minute ++ ":" ++ pad2 d.second ++ "Z")))
    | _ => .error attributeError
  else .ok .false

/-- `_serialize_date`. -/
def serializeDate (value : Value) : Except Failure Value :=
  if value.truthy then
    match value with
    | .date year month day => .ok (.json (.str (dateText year month day)))
    | .datetime d => .ok (.json (.str (dateText d.year d.month d.day)))
    | _ => .error attributeError
  else .ok .false

/-- `_serialize_binary`. -/
def serializeBinary (value : Value) : Except Failure Value :=
  if options.binary.isStr "inline" then .ok (if value.truthy then value else .false)
  else if value.truthy then
    match value with
    | .bytes ascii =>
      match b64decode ascii with
      | .ok decoded => .ok (.json (.obj [("size", .int decoded.length),
          ("checksum", .str (H.md5 decoded)), ("url", .bool false)]))
      | .error .binascii => .error (.raised (.python "Error"))
      | .error .notAscii => .error (.raised (.python "ValueError"))
    | _ => .error (.raised (.python "TypeError"))
  else .ok (.json (.obj [("size", .int 0), ("checksum", .bool false), ("url", .bool false)]))

/-- `_serialize_selection`. -/
def serializeSelection (labels : List (String × String)) (value : Value) : Value :=
  if options.labels.truthy then
    match value with
    | .json v =>
      let label := match v with
        | .str s => ((labels.lookup s).map Json.str).getD .null
        | _ => .null
      .json (.obj [("value", v), ("label", label)])
    | v => v
  else value

/-- `currency.round(value)`. -/
def currencyRound (currency : Nat) (value : Value) : Reads S Value := do
  let rounding ← read S "res.currency" currency "rounding"
  return H.floatRound value rounding

/-- `record[currency_field] if currency_field else False`. -/
def readCurrency (model : String) (id : Nat) (field : Field) : Reads S Value :=
  match field.currencyField with
  | some currencyField => read S model id currencyField
  | none => pure .false

/-- `_serialize_monetary`. -/
def serializeMonetary (model : String) (id : Nat) (field : Field) (value : Value) :
    Reads S Value := do
  let currency ← readCurrency S model id field
  if currency.truthy then
    match currency with
    | .record (some currency) => currencyRound H S currency value
    | _ => throw attributeError
  else match settings.companyCurrency with
    | some currency => currencyRound H S currency value
    | none => return value

/-- `get_digits`. -/
def Field.getDigits (field : Field) : Option Nat :=
  field.digits.map (Sum.elim id settings.precision)

/-- `_serialize_float`. -/
def serializeFloat (field : Field) (value : Value) : Value :=
  match field.getDigits settings with
  | some digits => H.round value digits
  | none => value

/-! ## Relations -/

section

/- `_serialize_records` of nested fields, when there are any. -/
variable (nested : Option (List Nat → Reads S (List Row)))

/-- `_serialize_many2one`. -/
def serializeMany2one (field : Field) (value : Value) : Reads S Out := do
  if value.truthy then
    match value with
    | .record (some id) =>
      if options.m2o.isStr "id" then return .value (.json (.int id))
      else match nested with
        | some serializeRecords =>
          match ← serializeRecords [id] with
          | row :: _ => return .record row
          | [] => throw (.raised (.python "IndexError"))
        | none =>
          let name ← displayName S field.comodel id
          return .value (.json (.obj [("id", .int id), ("display_name", .str name)]))
    | _ => throw attributeError
  else return .value .false

/-- `_serialize_x2many`. -/
def serializeX2many (value : Value) : Reads S Out := do
  match value with
  | .records ids =>
    match nested with
    | none => return .value (.json (.arr (ids.map fun id => .int id)))
    | some serializeRecords => return .records (← serializeRecords ids)
  | _ => throw attributeError

/-- `_serialize_value`. -/
def serializeValue (model : String) (id : Nat) (name : String) (field : Field) (value : Value) :
    Reads S Out :=
  match field.type with
  | .many2one => serializeMany2one S options nested field value
  | .one2many | .many2many => serializeX2many S nested value
  | .datetime => return .value (← serializeDatetime value)
  | .date => return .value (← serializeDate value)
  | .binary => return .value (← serializeBinary H options value)
  | .selection => return .value (serializeSelection options (settings.selection model name) value)
  | .monetary => return .value (← serializeMonetary H S settings model id field value)
  | .float => return .value (serializeFloat H settings field value)
  | .other _ => return .value value

end

/-! ## Records -/

/-- `_serialize_record`: fields that the user cannot read are dropped. -/
def serializeRecord : Specification → String → Nat → Reads S Row
  | .nil, _, _ => return []
  | .field name nested rest, model, id => do
    if S.readable model name then
      match S.fields model name with
      | none => throw (.raised (.python "KeyError"))
      | some field =>
        let value ← read S model id name
        let serializeRecords := fun ids => do
          let _ ← liftM (validateSpecification S nested field.comodel)
          List.mapM (serializeRecord nested field.comodel) ids
        let out ← serializeValue H S settings options
          (if nested.isEmpty then none else some serializeRecords) model id name field value
        let row ← serializeRecord rest model id
        return (name, out) :: row
    else serializeRecord rest model id

/-- `_serialize_records`. -/
def serializeRecords (specification : Specification) (model : String) (ids : List Nat) :
    Reads S (List Row) := do
  let _ ← liftM (validateSpecification S specification model)
  ids.mapM (serializeRecord H S settings options specification model)

/-- `_serialize` of the records `ids` of a model. -/
def serialize (specification : Specification) (model : String) (ids : List Nat) :
    Reads S (List Row) :=
  serializeRecords H S settings options specification model ids

end

end SsiRest.Serializer
