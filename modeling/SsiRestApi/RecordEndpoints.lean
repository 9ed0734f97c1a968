import SsiRestApi.Lib.Base64
import SsiRestApi.MethodCall
import SsiRestApi.Routes

/-!
# The endpoints of single records

`orm_read`, `orm_create`, `orm_write`, `orm_unlink`, `binary_upload` and `binary_download`,
over the operations of the ORM on the states of the database.  An operation runs as its
caller: the ORM checks the access lists and record rules of that user, and what it changes
is anything in the database, such as the records that a deletion cascades to.
-/

namespace SsiRest.RecordEndpoints

open Py OrmController MethodCall

/-! ## The ORM -/

/-- The picture that is made of an image field. -/
structure ImageQuery where
  placeholder : Json
  width : Int
  height : Int
  crop : Bool
  quality : Int

/-- What `binary_download` asks `ir.binary` for. -/
structure StreamQuery where
  field : Json
  filename : Json
  filenameField : Json
  mimetype : Json
  image : Option ImageQuery

structure Stream where
  data : List UInt8
  mimetype : String
  downloadName : String

/-- A specification with its options, which the serializer takes out first. -/
structure Asked where
  fields : List (Json × Json)
  options : Serializer.Options

/-- The records of a model, over the states `σ` of the database. -/
structure Records (σ : Type) where
  /-- `target.create(vals_list)`, with the ids of the new records. -/
  create : Caller → Json → σ → Except Exn (List Int × σ)
  /-- `target.browse(ids).write(vals)`. -/
  write : Caller → List Int → Json → σ → Except Exn σ
  /-- `target.browse(ids).unlink()`. -/
  unlink : Caller → List Int → σ → Except Exn σ
  /-- `target.browse(id).exists()`. -/
  hasRecord : Nat → σ → Bool
  /-- `target.browse(id).check_access("read")`. -/
  checkRead : Caller → Nat → σ → Except Exn Unit
  /-- The type of a field, `record._fields.get(field)`. -/
  fieldType : String → Option String
  /-- `_get_image_stream_from(record, …)` of `ir.binary`, or `_get_stream_from(record, …)`. -/
  stream : Caller → Nat → StreamQuery → σ → Except Exn Stream
  /-- `_serialize(records, specification)` of the serializer. -/
  serialize : Caller → List Int → Asked → σ → Except Exn Json

/-- The ORM, with `repr`, and `str` of what is no text. -/
structure Orm (σ : Type) where
  models : String → Option (Records σ)
  repr : Json → String
  str : Json → String

/-! ## Specifications -/

section

variable {σ : Type} (orm : Orm σ)

/-- `resolve_model`. -/
def resolveTarget (model : String) : Except Exn (Records σ) :=
  resolveModel (fun name => orm.repr (.str name)) orm.models model

/-- `_specification_from_query(kwargs)`. -/
def specificationOf (kwargs : Kw) : Except Exn Asked := do
  let fields ← Serializer.specificationFromQuery orm.str kwargs
  pure ⟨Serializer.popOptions fields, Serializer.optionsOf orm.str kwargs⟩

/-- `specification.setdefault("id", {})`. -/
def Asked.withId (asked : Asked) : Asked :=
  if asked.fields.any fun item => item.1.isStr "id" then asked
  else { asked with fields := asked.fields ++ [(.str "id", .obj [])] }

/-- What the answer of a creation or a change shows of the records. -/
def serializeWithId (target : Records σ) (caller : Caller) (records : List Int) (kwargs : Kw)
    (s : σ) : Except Exn Json := do
  let specification ← specificationOf orm kwargs
  target.serialize caller records specification.withId s

/-! ## The ORM controller -/

/-- `orm_read`. -/
def ormRead (loads : String → Except String Json) (caller : Caller) (model : String) (ids : Json)
    (kwargs : Kw) (s : σ) : Except Exn Json := do
  let target ← resolveTarget orm model
  let records ← parseIds loads ids
  let specification ← specificationOf orm kwargs
  target.serialize caller records specification s

/-- The list of values that `orm_create` is given. -/
def valsListOf (vals valsList : Json) : Except Exn Json :=
  match valsList, vals with
  | .null, .null => .error (RestAuthError "validation_error" "vals or vals_list is required." 422)
  | .null, vals => .ok (.arr [vals])
  | valsList, _ => .ok valsList

/-- `orm_create`. -/
def ormCreate (caller : Caller) (model : String) (vals valsList : Json) (kwargs : Kw) (s : σ) :
    Except Exn (Json × σ) := do
  let target ← resolveTarget orm model
  let valsList ← valsListOf vals valsList
  let (records, s) ← target.create caller valsList s
  let body ← serializeWithId orm target caller records kwargs s
  pure (body, s)

/-- `orm_write`. -/
def ormWrite (loads : String → Except String Json) (caller : Caller) (model : String)
    (ids vals : Json) (kwargs : Kw) (s : σ) : Except Exn (Json × σ) := do
  let target ← resolveTarget orm model
  match vals with
  | .null => .error (RestAuthError "validation_error" "vals is required." 422)
  | vals =>
    let records ← parseIds loads ids
    let s ← target.write caller records vals s
    let body ← serializeWithId orm target caller records kwargs s
    pure (body, s)

/-- `orm_unlink`. -/
def ormUnlink (loads : String → Except String Json) (caller : Caller) (model : String)
    (ids : Json) (s : σ) : Except Exn σ := do
  let target ← resolveTarget orm model
  let records ← parseIds loads ids
  target.unlink caller records s

/-! ## The binary controller -/

/-- `resolve_record`: a record that exists. -/
def resolveRecord (model : String) (resId : Nat) (s : σ) : Except Exn (Records σ) := do
  let target ← resolveTarget orm model
  if target.hasRecord resId s then pure target
  else
    .error (RestAuthError "missing_record"
      (model ++ " record " ++ toString resId ++ " does not exist.") 404)

def fieldRequired : Exn := RestAuthError "validation_error" "field is required." 422

/-- The name of a binary field; an unhashable key of `record._fields` is a `TypeError`. -/
def binaryField (target : Records σ) (field : Json) : Except Exn String :=
  let notBinary :=
    RestAuthError "validation_error" (orm.repr field ++ " is not a binary field.") 422
  match field with
  | .str name => if target.fieldType name == some "binary" then .ok name else .error notBinary
  | .arr _ | .obj _ => .error (.python "TypeError")
  | _ => .error notBinary

/-- `binary_upload`, with the content of the file `file` of the form. -/
def binaryUpload (caller : Caller) (model : String) (resId : Nat) (field : Json)
    (file : Option (List UInt8)) (s : σ) : Except Exn (Json × σ) := do
  if !field.truthy then .error fieldRequired
  else
    let target ← resolveRecord orm model resId s
    let name ← binaryField orm target field
    match file with
    | none => .error (RestAuthError "validation_error" "file is required." 422)
    | some uploaded =>
      let s ← target.write caller [resId] (.obj [(name, .str (b64encode uploaded))]) s
      pure (.obj [("id", .int resId), ("field", .str name)], s)

/-- The texts `parse_bool` takes for true. -/
def trueStrings : List String := ["1", "true", "yes", "on"]

/-- `parse_bool`: no other number, no list and no dictionary is written like one of these. -/
def parseBool : Json → Bool
  | .bool b => b
  | .int i => i == 1
  | .str s => trueStrings.contains (lower (strip s))
  | _ => false

/-- `int(value or 0)`. -/
def intOrZero (value : Json) : Except Exn Int := toInt (value.orElse (.int 0))

/-- `value not in (None, "")`. -/
def given : Json → Bool
  | .null | .str "" => false
  | _ => true

/-- The parameters that ask for a picture. -/
def imageParams : List String := ["width", "height", "crop", "quality", "placeholder"]

/-- The picture asked for, if one is. -/
def imageQuery (params : Kw) : Except Exn (Option ImageQuery) :=
  if imageParams.any fun key => given (params.get key) then do
    let width ← intOrZero (params.get "width")
    let height ← intOrZero (params.get "height")
    let quality ← intOrZero (params.get "quality")
    pure (some ⟨(params.get "placeholder").orElse .null, width, height,
      parseBool (params.get "crop"), quality⟩)
  else pure none

def streamQuery (params : Kw) : Except Exn StreamQuery := do
  let image ← imageQuery params
  pure ⟨params.get "field", params.get "filename",
    (params.lookup "filename_field").getD (.str "name"), params.get "mimetype", image⟩

/-- `binary_download`: the stream, and whether it is sent as an attachment. -/
def binaryDownload (caller : Caller) (model : String) (resId : Nat) (params : Kw) (s : σ) :
    Except Exn (Stream × Bool) := do
  if !(params.get "field").truthy then .error fieldRequired
  else
    let target ← resolveRecord orm model resId s
    target.checkRead caller resId s
    let query ← streamQuery params
    let stream ← target.stream caller resId query s
    pure (stream, parseBool (params.get "download"))

end

/-! ## Endpoints that return -/

variable {σ : Type} {orm : Orm σ}

theorem binaryField_ok {target : Records σ} {field : Json} {name : String}
    (h : binaryField orm target field = .ok name) : field = .str name := by
  unfold binaryField at h
  split at h
  · split at h <;> cases h
    rfl
  · cases h
  · cases h
  · cases h

theorem resolveRecord_ok {model : String} {resId : Nat} {s : σ} {target : Records σ}
    (h : resolveRecord orm model resId s = .ok target) :
    resolveTarget orm model = .ok target ∧ target.hasRecord resId s = true := by
  obtain ⟨target', htarget, h⟩ := bind_ok_iff.mp h
  split at h
  · next hrecord =>
    cases h
    exact ⟨htarget, hrecord⟩
  · cases h

/-- A creation that returns has created the records of its values. -/
theorem ormCreate_ok {caller : Caller} {model : String} {vals valsList body : Json} {kwargs : Kw}
    {s s' : σ} (h : ormCreate orm caller model vals valsList kwargs s = .ok (body, s')) :
    ∃ target created records, resolveTarget orm model = .ok target ∧
      valsListOf vals valsList = .ok created ∧
      target.create caller created s = .ok (records, s') := by
  simp only [ormCreate, bind_ok_iff] at h
  obtain ⟨target, htarget, created, hvals, ⟨records, s''⟩, hcreate, body', -, h⟩ := h
  cases h
  exact ⟨target, created, records, htarget, hvals, hcreate⟩

/-- A change that returns has written the values to the records of its ids. -/
theorem ormWrite_ok {loads : String → Except String Json} {caller : Caller} {model : String}
    {ids vals body : Json} {kwargs : Kw} {s s' : σ}
    (h : ormWrite orm loads caller model ids vals kwargs s = .ok (body, s')) :
    ∃ target records, resolveTarget orm model = .ok target ∧ parseIds loads ids = .ok records ∧
      target.write caller records vals s = .ok s' := by
  obtain ⟨target, htarget, h⟩ := bind_ok_iff.mp h
  split at h
  · cases h
  · simp only [bind_ok_iff] at h
    obtain ⟨records, hids, s'', hwrite, body', -, h⟩ := h
    cases h
    exact ⟨target, records, htarget, hids, hwrite⟩

/-- A deletion that returns has deleted the records of its ids. -/
theorem ormUnlink_ok {loads : String → Except String Json} {caller : Caller} {model : String}
    {ids : Json} {s s' : σ} (h : ormUnlink orm loads caller model ids s = .ok s') :
    ∃ target records, resolveTarget orm model = .ok target ∧ parseIds loads ids = .ok records ∧
      target.unlink caller records s = .ok s' := by
  simp only [ormUnlink, bind_ok_iff] at h
  obtain ⟨target, htarget, records, hids, hunlink⟩ := h
  exact ⟨target, records, htarget, hids, hunlink⟩

/-- An upload that returns has written the file to its field. -/
theorem binaryUpload_ok {caller : Caller} {model : String} {resId : Nat} {field : Json}
    {file : Option (List UInt8)} {s s' : σ} {body : Json}
    (h : binaryUpload orm caller model resId field file s = .ok (body, s')) :
    ∃ target name data, resolveTarget orm model = .ok target ∧ field = .str name ∧
      file = some data ∧
      target.write caller [resId] (.obj [(name, .str (b64encode data))]) s = .ok s' := by
  unfold binaryUpload at h
  split at h
  · cases h
  · obtain ⟨target, htarget, h⟩ := bind_ok_iff.mp h
    obtain ⟨name, hname, h⟩ := bind_ok_iff.mp h
    cases file with
    | none => cases h
    | some data =>
      obtain ⟨s'', hwrite, h⟩ := bind_ok_iff.mp h
      cases h
      exact ⟨target, name, data, (resolveRecord_ok htarget).1, binaryField_ok hname, rfl,
        hwrite⟩

end SsiRest.RecordEndpoints
