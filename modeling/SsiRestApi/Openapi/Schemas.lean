import SsiRestApi.Introspection.Views
import SsiRestApi.Lib.PyDict
import SsiRestApi.Openapi.Document

/-!
# The schemas of the OpenAPI document

The document describes the models of its routes by the fields that introspection shows
the caller.

    a name has the schema of the last readable model it stands for     (lookup_schemas)
    every readable model has its schema and nothing else has one ↔ no two share a name,
      and none has the name of the error envelope               (schemas_exact_iff)
    the document shows the fields of readable models with their types, and nothing else
      of a model                                               (documents_alike_iff)
-/

namespace SsiRest.Introspection

open Py Serializer

/-- `_FIELD_OPENAPI_TYPES`. -/
def fieldOpenapiTypes : List (String × String) :=
  [("integer", "integer"), ("float", "number"), ("monetary", "number"), ("boolean", "boolean"),
   ("many2one", "integer"), ("one2many", "array"), ("many2many", "array")]

/-- `_field_openapi_type`. -/
def fieldOpenapiType (description : Kw) : String :=
  match description.get "type" with
  | .str type => (fieldOpenapiTypes.lookup type).getD "string"
  | _ => "string"

/-- `_ERROR_SCHEMA`. -/
def errorSchema : Json :=
  .obj [("type", .str "object"),
    ("description", .str ("The single error envelope shape every failed ssi_rest request is " ++
      "rendered as (see ssi_rest_api/lib/errors.py:build_error_body).")),
    ("properties", .obj [("error", .obj [("type", .str "object"),
      ("properties", .obj [("code", .obj [("type", .str "string")]),
        ("message", .obj [("type", .str "string")]),
        ("status", .obj [("type", .str "integer")]),
        ("request_id", .obj [("type", .str "string")]),
        ("details", .obj [("type", .arr [.str "object", .str "null"])])]),
      ("required", .arr [.str "code", .str "message", .str "status", .str "request_id"])])]),
    ("required", .arr [.str "error"])]

/-- `_schema_name`. -/
def schemaName (modelName : String) : String := replaceChar '.' '_' modelName

/-- `_model_schema`, of the described fields. -/
def modelSchema (fields : List (String × Kw)) : Json :=
  .obj [("type", .str "object"),
    ("properties", .obj (fields.map fun f =>
      (f.1, .obj [("type", .str (fieldOpenapiType f.2))])))]

variable (repr : Json → String) (env : Env)

/-- The schema of a model, if the caller may read it. -/
def schemaOf (modelName : String) : Option Json :=
  match resolveReadableModel repr env (.str modelName) with
  | .ok (_, target) => some (modelSchema (target.fieldsGet env.user []))
  | .error _ => none

/-- The loop of `_component_schemas`: a model that is not readable is left out. -/
def addSchema (schemas : Kw) (modelName : String) : Kw :=
  match schemaOf repr env modelName with
  | some schema => schemas.set (schemaName modelName) schema
  | none => schemas

/-- `sorted(model_names)` of the set of them. -/
def sortedNames (modelNames : List String) : List String :=
  modelNames.dedup.mergeSort fun a b => decide (a ≤ b)

def schemas (modelNames : List String) : Kw :=
  (sortedNames modelNames).foldl (addSchema repr env) [("Error", errorSchema)]

/-- `_component_schemas`. -/
def componentSchemas (modelNames : List String) : Json := .obj (schemas repr env modelNames)

/-! ## The endpoint -/

/-- `user.has_group(xmlid)`. -/
def hasGroup (xmlid : String) : Bool :=
  match ref env xmlid with
  | some ("res.groups", id) => env.allGroupIds.contains id
  | _ => false

/-- `_ensure_doc_group`. -/
def ensureDocGroup : Except Exn Unit :=
  if hasGroup env "ssi_rest_api_doc.ssi_rest_openapi_group" then .ok ()
  else .error (RestAuthError "access_denied"
    "You are not allowed to access the API documentation." 403)

/-- `_current_rest_version`. -/
def currentRestVersion (path : String) : Except Exn Nat :=
  match versionPrefix path with
  | some (digits, _) => .ok (ofDecimals digits)
  | none => .error (.python "AttributeError")

/-- `openapi_document`. -/
def openapiDocument (routingMap : List Rule) (path : String) : Except Exn Document := do
  ensureDocGroup env
  let version ← currentRestVersion path
  pure (buildDocument (componentSchemas repr env) routingMap version)

/-! ## One name -/

variable {repr : Json → String} {env : Env} {modelNames : List String}

theorem mem_sortedNames {name : String} : name ∈ sortedNames modelNames ↔ name ∈ modelNames := by
  unfold sortedNames
  rw [List.mem_mergeSort, List.mem_dedup]

/-- The schema that a model puts under the key. -/
def schemaUnder (repr : Json → String) (env : Env) (key modelName : String) : Option Json :=
  if schemaName modelName = key then schemaOf repr env modelName else none

theorem schemaUnder_eq_some_iff {key modelName : String} {schema : Json} :
    schemaUnder repr env key modelName = some schema ↔
      schemaName modelName = key ∧ schemaOf repr env modelName = some schema := by
  unfold schemaUnder
  split
  · next h => simp [h]
  · next h => simp [h]

/-- The last model that puts a schema under the key counts, else what was there. -/
theorem lookup_addSchemas (names : List String) (start : Kw) (key : String) :
    (names.foldl (addSchema repr env) start).lookup key =
      (names.reverse.findSome? (schemaUnder repr env key)).or (start.lookup key) := by
  induction names using List.reverseRecOn with
  | nil => rfl
  | append_singleton names name ih =>
    rw [List.foldl_append, List.foldl_cons, List.foldl_nil, List.reverse_append,
      List.reverse_singleton, List.singleton_append, List.findSome?_cons, addSchema, schemaUnder]
    cases schemaOf repr env name with
    | none => simp [ih]
    | some schema =>
      rw [Kw.lookup_set]
      split
      · rfl
      · exact ih

theorem lookup_schemas (key : String) :
    (schemas repr env modelNames).lookup key =
      ((sortedNames modelNames).reverse.findSome? (schemaUnder repr env key)).or
        (if key = "Error" then some errorSchema else none) := by
  unfold schemas
  rw [lookup_addSchemas, List.lookup_cons, List.lookup_nil]
  congr 1
  by_cases h : key = "Error"
  · simp [h]
  · simp [h, beq_false_of_ne h]

theorem findSome?_eq_some {key : String} {schema : Json}
    (h : (sortedNames modelNames).reverse.findSome? (schemaUnder repr env key) = some schema) :
    ∃ name ∈ modelNames, schemaName name = key ∧ schemaOf repr env name = some schema := by
  obtain ⟨name, hname, hunder⟩ := List.exists_of_findSome?_eq_some h
  exact ⟨name, mem_sortedNames.mp (List.mem_reverse.mp hname), schemaUnder_eq_some_iff.mp hunder⟩

theorem isSome_findSome? {name : String} {schema : Json} (hname : name ∈ modelNames)
    (hschema : schemaOf repr env name = some schema) :
    ∃ schema', (sortedNames modelNames).reverse.findSome? (schemaUnder repr env (schemaName name)) =
      some schema' := by
  rw [← Option.isSome_iff_exists, List.findSome?_isSome_iff]
  refine ⟨name, List.mem_reverse.mpr (mem_sortedNames.mpr hname), ?_⟩
  rw [schemaUnder_eq_some_iff.mpr ⟨rfl, hschema⟩]
  rfl

/-! ## All names -/

/-- The schemas are the error envelope and those of the models whose fields introspection shows the
caller: their fields, under their names. -/
structure SchemasExact (repr : Json → String) (env : Env) (modelNames : List String) : Prop where
  error : (componentSchemas repr env modelNames).field "Error" = some errorSchema
  models : ∀ name ∈ modelNames, ∀ fields : List (String × Kw),
    introspectionModelFields repr env name = .ok (.record (fields.map describe)) →
      (componentSchemas repr env modelNames).field (schemaName name) = some (modelSchema fields)
  nothingElse : ∀ key schema, (componentSchemas repr env modelNames).field key = some schema →
    key = "Error" ∨ ∃ name ∈ modelNames, key = schemaName name ∧
      ∃ page, introspectionModelFields repr env name = .ok page

/-- The page of the fields of a model, if it opens. -/
def shownFields (repr : Json → String) (env : Env) (name : String) : Option (List (String × Kw)) :=
  match resolveReadableModel repr env (.str name) with
  | .ok (_, target) => some (target.fieldsGet env.user [])
  | .error _ => none

theorem schemaOf_eq (name : String) :
    schemaOf repr env name = (shownFields repr env name).map modelSchema := by
  unfold schemaOf shownFields
  cases resolveReadableModel repr env (.str name) <;> rfl

theorem describe_injective : Function.Injective describe := by
  rintro ⟨name, description⟩ ⟨name', description'⟩ h
  simpa [describe] using h

theorem shownFields_eq_some_iff {name : String} {fields : List (String × Kw)} :
    shownFields repr env name = some fields ↔
      introspectionModelFields repr env name = .ok (.record (fields.map describe)) := by
  unfold shownFields introspectionModelFields
  cases resolveReadableModel repr env (.str name) with
  | error e => simp [bind, Except.bind]
  | ok target =>
    obtain ⟨name', cls⟩ := target
    have hpage : ((cls.fieldsGet env.user []).map fun f => (f.1, Out.value (.json (.obj f.2)))) =
        (cls.fieldsGet env.user []).map describe := rfl
    simp only [bind, Except.bind, pure, Except.pure, Option.some.injEq, Except.ok.injEq,
      Out.record.injEq, hpage]
    exact ⟨fun h => by rw [h], fun h => List.map_injective_iff.mpr describe_injective h⟩

/-- No readable model has the name of the error envelope, and two of one schema name have one
schema. -/
structure NamesApart (repr : Json → String) (env : Env) (modelNames : List String) : Prop where
  error : ∀ name ∈ modelNames, schemaOf repr env name ≠ none → schemaName name ≠ "Error"
  models : ∀ name ∈ modelNames, ∀ name' ∈ modelNames, ∀ schema schema',
    schemaOf repr env name = some schema → schemaOf repr env name' = some schema' →
      schemaName name = schemaName name' → schema = schema'

theorem modelSchema_ne_errorSchema (fields : List (String × Kw)) :
    modelSchema fields ≠ errorSchema := by
  unfold modelSchema errorSchema
  simp

/-- **The schemas of a document.**  They are what introspection shows of the models, beside the
error envelope that the operations refer to, exactly if no two names come to one. -/
theorem schemas_exact_iff (repr : Json → String) (env : Env) (modelNames : List String) :
    SchemasExact repr env modelNames ↔ NamesApart repr env modelNames := by
  have hfield : ∀ key, (componentSchemas repr env modelNames).field key =
      ((sortedNames modelNames).reverse.findSome? (schemaUnder repr env key)).or
        (if key = "Error" then some errorSchema else none) := lookup_schemas
  constructor
  · intro h
    have hshown : ∀ name ∈ modelNames, ∀ schema, schemaOf repr env name = some schema →
        (componentSchemas repr env modelNames).field (schemaName name) = some schema := by
      intro name hname schema hschema
      rw [schemaOf_eq, Option.map_eq_some_iff] at hschema
      obtain ⟨fields, hfields, rfl⟩ := hschema
      exact h.models name hname fields (shownFields_eq_some_iff.mp hfields)
    refine ⟨fun name hname hsome heq => ?_, fun name hname name' hname' schema schema' hs hs' heq => ?_⟩
    · obtain ⟨schema, hschema⟩ := Option.ne_none_iff_exists'.mp hsome
      have herror := hshown name hname schema hschema
      rw [heq, h.error, Option.some.injEq] at herror
      rw [schemaOf_eq, Option.map_eq_some_iff] at hschema
      obtain ⟨fields, -, rfl⟩ := hschema
      exact modelSchema_ne_errorSchema fields herror.symm
    · have hfirst := hshown name hname schema hs
      rw [heq, hshown name' hname' schema' hs'] at hfirst
      exact (Option.some.inj hfirst).symm
  · intro h
    refine ⟨?_, fun name hname fields hpage => ?_, fun key schema hkey => ?_⟩
    · rw [hfield, if_pos rfl]
      cases hfind : (sortedNames modelNames).reverse.findSome? (schemaUnder repr env "Error") with
      | none => rfl
      | some schema =>
        obtain ⟨name, hname, hkey, hschema⟩ := findSome?_eq_some hfind
        exact absurd hkey (h.error name hname (by simp [hschema]))
    · have hschema : schemaOf repr env name = some (modelSchema fields) := by
        rw [schemaOf_eq, shownFields_eq_some_iff.mpr hpage]
        rfl
      obtain ⟨schema', hfind⟩ := isSome_findSome? hname hschema
      obtain ⟨name', hname', hkey, hschema'⟩ := findSome?_eq_some hfind
      rw [hfield, hfind, Option.some_or,
        h.models name' hname' name hname schema' _ hschema' hschema hkey]
    · rw [hfield] at hkey
      cases hfind : (sortedNames modelNames).reverse.findSome? (schemaUnder repr env key) with
      | some schema' =>
        obtain ⟨name, hname, rfl, hschema⟩ := findSome?_eq_some hfind
        rw [schemaOf_eq, Option.map_eq_some_iff] at hschema
        obtain ⟨fields, hfields, -⟩ := hschema
        exact Or.inr ⟨name, hname, rfl, _, shownFields_eq_some_iff.mp hfields⟩
      | none =>
        rw [hfind, Option.none_or] at hkey
        split at hkey
        · next herror => exact Or.inl herror
        · cases hkey

/-! ## Who reads the document -/

variable {env' : Env}

/-- The group of the documentation has the user. -/
def readsDocs (env : Env) : Bool := hasGroup env "ssi_rest_api_doc.ssi_rest_openapi_group"

theorem openapiDocument_eq (repr : Json → String) (env : Env) (routingMap : List Rule)
    (path : String) :
    openapiDocument repr env routingMap path =
      if readsDocs env then (currentRestVersion path).map
        (buildDocument (componentSchemas repr env) routingMap)
      else .error (RestAuthError "access_denied"
        "You are not allowed to access the API documentation." 403) := by
  unfold openapiDocument ensureDocGroup readsDocs
  split
  · cases currentRestVersion path <;> rfl
  · rfl

/-- A routing map whose only route is for one model. -/
def routeOf (modelName : String) : List Rule :=
  [⟨"/api/v1/x", none, "x", "ssi_rest", .ssiRest, none, some modelName⟩]

theorem schemas_routeOf (componentSchemas : List String → Json) {modelName : String}
    (hmodel : modelName ≠ "") :
    (buildDocument componentSchemas (routeOf modelName) 1).schemas = componentSchemas [modelName] := by
  have hversion : ruleMatchesVersion "/api/v1/x" 1 = true := by decide +kernel
  simp [buildDocument, routeOf, hversion, hmodel]

/-- A document for one model shows its schema, or that the caller may not read the model. -/
theorem schemaOf_eq_of_componentSchemas {modelName : String}
    (h : componentSchemas repr env [modelName] = componentSchemas repr env' [modelName]) :
    schemaOf repr env modelName = schemaOf repr env' modelName := by
  have hlookup : ∀ env : Env, (schemas repr env [modelName]).lookup (schemaName modelName) =
      (schemaOf repr env modelName).or
        (if schemaName modelName = "Error" then some errorSchema else none) := by
    intro env
    rw [lookup_schemas]
    simp [sortedNames, schemaUnder]
  have heq := congrArg (fun v => v.field (schemaName modelName)) h
  simp only [componentSchemas, Json.field, hlookup] at heq
  have hne : ∀ (env : Env) schema, schemaOf repr env modelName = some schema →
      schema ≠ errorSchema := by
    intro env schema hschema
    rw [schemaOf_eq, Option.map_eq_some_iff] at hschema
    obtain ⟨fields, -, rfl⟩ := hschema
    exact modelSchema_ne_errorSchema fields
  cases hschema : schemaOf repr env modelName with
  | some schema =>
    cases hschema' : schemaOf repr env' modelName with
    | some schema' => simpa [hschema, hschema'] using heq
    | none =>
      have hsome := hne env schema hschema
      simp only [hschema, hschema', Option.some_or, Option.none_or] at heq
      split at heq
      · exact absurd (Option.some.inj heq) hsome
      · cases heq
  | none =>
    cases hschema' : schemaOf repr env' modelName with
    | none => rfl
    | some schema' =>
      have hsome := hne env' schema' hschema'
      simp only [hschema, hschema', Option.some_or, Option.none_or] at heq
      split at heq
      · exact absurd (Option.some.inj heq).symm hsome
      · cases heq

/-- **What the documentation shows.**  Two callers read the same documents, whatever the routes, if
the group lets neither of them or both, and in that case the models they may read have the same
fields of the same OpenAPI types; nothing else of a model shows. -/
theorem documents_alike_iff (repr : Json → String) (env env' : Env) :
    (∀ routingMap path, openapiDocument repr env routingMap path =
        openapiDocument repr env' routingMap path) ↔
      readsDocs env = readsDocs env' ∧ (readsDocs env = true → ∀ modelName, modelName ≠ "" →
        schemaOf repr env modelName = schemaOf repr env' modelName) := by
  simp only [openapiDocument_eq]
  have hversion : currentRestVersion "/api/v1/openapi.json" = .ok 1 := by
    have hstart : versionPrefix "/api/v1/openapi.json" = some (['1'], "openapi.json".toList) := by
      decide +kernel
    have hdigits : ofDecimals ['1'] = 1 := by decide +kernel
    unfold currentRestVersion
    rw [hstart, ← hdigits]
  constructor
  · intro h
    have hgroup : readsDocs env = readsDocs env' := by
      have heq := h [] "/api/v1/openapi.json"
      rw [hversion] at heq
      cases hreads : readsDocs env <;> cases hreads' : readsDocs env'
      · rfl
      · rw [hreads, hreads'] at heq
        cases heq
      · rw [hreads, hreads'] at heq
        cases heq
      · rfl
    refine ⟨hgroup, fun hreads modelName hmodel => schemaOf_eq_of_componentSchemas ?_⟩
    have heq := h (routeOf modelName) "/api/v1/openapi.json"
    rw [← hgroup, hreads, if_pos rfl, if_pos rfl, hversion] at heq
    have hschemas := congrArg Document.schemas (Except.ok.inj heq)
    rwa [schemas_routeOf _ hmodel, schemas_routeOf _ hmodel] at hschemas
  · rintro ⟨hgroup, hschemas⟩ routingMap path
    rw [← hgroup]
    cases hreads : readsDocs env with
    | false => rfl
    | true =>
      rw [if_pos rfl, if_pos rfl]
      have hadd : ∀ (names : List String) (start : Kw), (∀ name ∈ names, name ≠ "") →
          names.foldl (addSchema repr env) start = names.foldl (addSchema repr env') start := by
        intro names start hnames
        refine List.foldl_ext _ _ start fun schemas name hname => ?_
        unfold addSchema
        rw [hschemas hreads name (hnames name hname)]
      congr 1
      funext version
      have hnames : ∀ name ∈ sortedNames (((routingMap.filter fun rule => rule.type == "ssi_rest" &&
          ruleMatchesVersion rule.rule version).filterMap (·.model)).filter (· ≠ "")), name ≠ "" := by
        intro name hname
        simpa using (List.mem_filter.mp (mem_sortedNames.mp hname)).2
      have hcomponents := congrArg Json.obj (hadd _ [("Error", errorSchema)] hnames)
      unfold buildDocument
      rw [Document.mk.injEq]
      exact ⟨rfl, rfl, rfl, rfl, rfl, hcomponents⟩

end SsiRest.Introspection
