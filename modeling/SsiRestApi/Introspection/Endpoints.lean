import Mathlib.Data.String.Basic
import SsiRestApi.OrmController

/-!
# The introspection endpoints

What a caller is told about models, fields, records, companies and groups.  Models and
fields are filtered through the access list of the model (`ir.model.access.check`) and
the groups of the field (`fields_get`), both in the caller's own environment.
-/

namespace SsiRest.Introspection

open Py Acl Serializer

/-- A field: who may read it, and how `fields_get` describes it. -/
structure FieldInfo where
  readableBy : User → Bool
  description : Kw

/-- A class of the registry: `_description` and `_fields`. -/
structure ModelClass where
  description : String
  fields : List (String × FieldInfo)
  nodup_fields : (fields.map Prod.fst).Nodup

/-- A row of `ir_model_data`. -/
structure ExternalId where
  xmlid : String
  model : String
  resId : Nat

/-- The environment of a request. -/
structure Env where
  user : User
  registry : List (String × ModelClass)
  nodup_registry : (registry.map Prod.fst).Nodup
  named_registry : ∀ m ∈ registry, m.1 ≠ ""
  /-- `ir_model_access`: whose model an entry is about, and the entry. -/
  access : List (String × Access Group)
  externalIds : List ExternalId
  /-- `record.exists()`. -/
  recordExists : String → Nat → Bool
  /-- `user.company_id`, `user.company_ids` and `user.all_group_ids`. -/
  companyId : Nat
  companyIds : List Nat
  allGroupIds : List Nat
  /-- `odoo.release.version` and the installed modules. -/
  version : String
  installedModules : List String
  /-- What the serializer runs in. -/
  orm : OrmController.Env

/- `repr(value)`. -/
variable (repr : Json → String) (env : Env)

/-! ## What the caller may read -/

/-- `ir.model.access.check(model, mode, raise_exception=False)`. -/
def Env.check (model : String) (mode : Mode) : Bool :=
  env.access.any fun a => a.1 == model && a.2.grants env.user mode

/-- `ir.model.access.check(model, mode, raise_exception=True)`. -/
def Env.checkAccess (model : String) (mode : Mode) : Except Exn Unit :=
  if env.check model mode then .ok () else .error (.userError .accessError 403 model)

def Env.lookup (model : String) : Option ModelClass := env.registry.lookup model

/-- `fields_get(allfields)`: an empty list of names asks for all fields. -/
def ModelClass.fieldsGet (cls : ModelClass) (user : User) (allfields : List String) :
    List (String × Kw) :=
  (cls.fields.filter fun f =>
    (allfields.isEmpty || allfields.contains f.1) && f.2.readableBy user).map
      fun f => (f.1, f.2.description)

def modelRequired : Exn := RestAuthError "validation_error" "model is required." 422

def unknownModel (model : Json) : Exn :=
  RestAuthError "missing_record" ("Model " ++ repr model ++ " does not exist.") 404

/-- `resolve_readable_model`; a list or a dictionary is no key of the registry. -/
def resolveReadableModel (model : Json) : Except Exn (String × ModelClass) :=
  if !model.truthy then .error modelRequired
  else match model with
    | .str name =>
      match env.lookup name with
      | none => .error (unknownModel repr model)
      | some target => (env.checkAccess name .read).map fun _ => (name, target)
    | .arr _ | .obj _ => .error (.python "TypeError")
    | _ => .error (unknownModel repr model)

/-! ## Endpoints -/

/-- Fields without options. -/
def plainFields (names : List String) : Specification :=
  names.foldr (fun name rest => .field name .nil rest) .nil

/-- `serializer._serialize(records, specification)`. -/
def serialize (model : String) (ids : List Nat) (names : List String) :
    Except Exn (List Serializer.Row) :=
  OrmController.serialize env.orm model ids (plainFields names)

/-- `serializer._serialize(record, specification)[0]`. -/
def serializeOne (model : String) (id : Nat) (names : List String) : Except Exn Serializer.Row := do
  match ← serialize env model [id] names with
  | row :: _ => .ok row
  | [] => .error (.python "IndexError")

def text (s : String) : Out := .value (.json (.str s))

/-- The models of the listing, with their descriptions. -/
def listing : List (String × String) :=
  ((env.registry.mergeSort fun a b => decide (a.1 ≤ b.1)).filter fun m =>
    !startsWith m.1 "mixin." && env.check m.1 .read).map fun m => (m.1, m.2.description)

/-- `introspection_models`. -/
def introspectionModels : Out :=
  .records ((listing env).map fun m => [("model", text m.1), ("name", text m.2)])

/-- `introspection_model_detail`. -/
def introspectionModelDetail (model : String) : Except Exn Out := do
  let (_, target) ← resolveReadableModel repr env (.str model)
  pure (.record [("model", text model), ("name", text target.description)])

/-- `introspection_model_fields`. -/
def introspectionModelFields (model : String) : Except Exn Out := do
  let (_, target) ← resolveReadableModel repr env (.str model)
  pure (.record ((target.fieldsGet env.user []).map fun f => (f.1, .value (.json (.obj f.2)))))

/-- `record.get_external_id().get(record.id) or False`. -/
def externalId (model : String) (id : Nat) : Json :=
  match env.externalIds.find? fun x => x.model == model && x.resId == id with
  | some x => Json.orElse (.str x.xmlid) (.bool false)
  | none => .bool false

/-- `introspection_record_metadata`. -/
def introspectionRecordMetadata (model : String) (resId : Nat) : Except Exn Out := do
  let _ ← resolveReadableModel repr env (.str model)
  let body ← serializeOne env model resId
    ["id", "create_uid", "create_date", "write_uid", "write_date"]
  pure (.record (body ++ [("xmlid", .value (.json (externalId env model resId)))]))

/-- `introspection_server`. -/
def introspectionServer : Except Exn Out := do
  env.checkAccess "ir.module.module" .read
  let modules := env.installedModules.mergeSort fun a b => decide (a ≤ b)
  pure (.record [("version", text env.version),
    ("modules", .value (.json (.arr (modules.map .str))))])

/-- `introspection_company`. -/
def introspectionCompany : Except Exn Out := do
  let company ← serializeOne env "res.company" env.companyId ["id", "name"]
  let companies ← serialize env "res.company" env.companyIds ["id", "name"]
  pure (.record [("company", .record company), ("companies", .records companies)])

/-- The four modes by name. -/
def modes : List (String × Mode) :=
  [("read", .read), ("write", .write), ("create", .create), ("unlink", .unlink)]

/-- `introspection_access_rights`. -/
def introspectionAccessRights (model : Json) : Except Exn Out :=
  if !model.truthy then .error modelRequired
  else match model with
    | .str name => .ok (.record (modes.map fun mode =>
        (mode.1, .value (.json (.bool (env.check name mode.2))))))
    | _ => .error (.python "AssertionError")

/-- `[name.strip() for name in fields.split(",")] if fields else None`. -/
def fieldNames (fields : Json) : Except Exn (List String) :=
  if !fields.truthy then .ok []
  else match fields with
    | .str names => .ok ((splitOn ',' names).map strip)
    | _ => .error (.python "AttributeError")

/-- What `introspection_access_fields` says about a field. -/
def fieldAccess (canWrite : Bool) (description : Kw) : Out :=
  .record [("readable", .value (.json (.bool true))),
    ("writable", .value (.json (.bool (canWrite && !(description.get "readonly").truthy))))]

/-- `introspection_access_fields`. -/
def introspectionAccessFields (model fields : Json) : Except Exn Out := do
  let (name, target) ← resolveReadableModel repr env model
  let names ← fieldNames fields
  let canWrite := env.check name .write
  pure (.record ((target.fieldsGet env.user names).map fun f => (f.1, fieldAccess canWrite f.2)))

/-- `introspection_groups`. -/
def introspectionGroups : Except Exn Out :=
  (serialize env "res.groups" env.allGroupIds ["id", "name"]).map .records

/-- `env.ref(xmlid, raise_if_not_found=False)`: the model and id of the record. -/
def ref (xmlid : String) : Option (String × Nat) :=
  match env.externalIds.find? fun x => x.xmlid == xmlid with
  | some x => if env.recordExists x.model x.resId then some (x.model, x.resId) else none
  | none => none

/-- `introspection_has_group`. -/
def introspectionHasGroup (groupXmlid : Json) : Except Exn Out :=
  if !groupXmlid.truthy then
    .error (RestAuthError "validation_error" "group_xmlid is required." 422)
  else match groupXmlid with
    | .str xmlid =>
      match ref env xmlid with
      | some ("res.groups", id) =>
        .ok (.record [("result", .value (.json (.bool (env.allGroupIds.contains id))))])
      | _ =>
        .error (RestAuthError "missing_record"
          ("No res.groups record for xmlid " ++ repr groupXmlid ++ ".") 404)
    | _ => .error (.python "AttributeError")

/-- A request to one of the endpoints. -/
inductive Request where
  | models
  | modelDetail (model : String)
  | modelFields (model : String)
  | recordMetadata (model : String) (resId : Nat)
  | server
  | company
  | accessRights (model : Json)
  | accessFields (model fields : Json)
  | groups
  | hasGroup (groupXmlid : Json)

def respond : Request → Except Exn Out
  | .models => .ok (introspectionModels env)
  | .modelDetail model => introspectionModelDetail repr env model
  | .modelFields model => introspectionModelFields repr env model
  | .recordMetadata model resId => introspectionRecordMetadata repr env model resId
  | .server => introspectionServer env
  | .company => introspectionCompany env
  | .accessRights model => introspectionAccessRights env model
  | .accessFields model fields => introspectionAccessFields repr env model fields
  | .groups => introspectionGroups env
  | .hasGroup groupXmlid => introspectionHasGroup repr env groupXmlid

end SsiRest.Introspection
