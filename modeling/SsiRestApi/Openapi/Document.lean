import Mathlib.Data.List.Dedup
import SsiRestApi.Lib.Dict
import SsiRestApi.RoutePattern

/-!
# The OpenAPI document

`ssi_rest_openapi` reads the routing map back into an OpenAPI document of one version.

    the rules of `/api/v<n>` are those of version `n`     (ruleMatchesVersion_versionedPath)
    a pattern gives its template and the placeholders in order           (openapiPath_text)
    the operations are the methods the router serves                 (mem_operationMethods)
-/

namespace SsiRest

open Py

/-- A parameter of an operation, with the type of its schema. -/
structure Parameter where
  name : String
  location : String := "path"
  required : Bool := true
  type : String

structure PathOperation where
  operationId : String
  tags : List String
  parameters : List Parameter
  security : List Json
  responses : Json

/-- The document; `title` and `version` are its `info`. -/
structure Document where
  openapi : String
  title : String
  version : String
  paths : Dict (Dict PathOperation)
  securitySchemes : Json
  schemas : Json

/-- `_IGNORED_HTTP_METHODS`. -/
def ignoredHttpMethods : List String := ["HEAD", "OPTIONS"]

/-- `_CONVERTER_OPENAPI_TYPES`. -/
def converterOpenapiTypes : List (String × String) := [("int", "integer"), ("float", "number")]

/-- `^/api/v(\d+)/`: the digits and what follows. -/
def versionPrefix (pattern : String) : Option (List Char × List Char) :=
  if startsWith pattern "/api/v" then
    let rest := pattern.toList.drop 6
    let digits := rest.takeWhile isDecimal
    if digits = [] then none
    else match rest.dropWhile isDecimal with
      | '/' :: tail => some (digits, tail)
      | _ => none
  else none

/-- `_rule_matches_version`. -/
def ruleMatchesVersion (pattern : String) (version : Nat) : Bool :=
  match versionPrefix pattern with
  | some (digits, _) => ofDecimals digits == version
  | none => false

/-- The parameter of a placeholder. -/
def Placeholder.parameter (p : Placeholder) : Parameter where
  name := p.name
  type := (p.converter.bind fun c => converterOpenapiTypes.lookup c).getD "string"

/-- `_openapi_path`. -/
def openapiPath (pattern : String) : String × List Parameter :=
  let found := Scan.items matchParam 0 pattern.toList
  (String.ofList (Scan.render (fun p => expression p.name) found),
   (found.filterMap Sum.getRight?).map Placeholder.parameter)

/-- `_operation_id`. -/
def operationId (rule : Rule) (method : String) : String :=
  Py.join "_" ([rule.operation.getD "", rule.endpoint, Py.lower method].filter (· ≠ ""))

/-- `_tag_for_path`. -/
def tagForPath (pattern : String) : String :=
  match versionPrefix pattern with
  | some (_, tail) =>
    let segment := tail.takeWhile (· ≠ '/')
    if segment = [] then "default" else String.ofList segment
  | none => "default"

/-- `_operation_security`. -/
def operationSecurity : List Json :=
  [.obj [("bearerAuth", .arr [])], .obj [("basicAuth", .arr [])]]

/-- `_security_schemes`. -/
def securitySchemes : Json :=
  .obj [("bearerAuth", .obj [("type", .str "http"), ("scheme", .str "bearer")]),
    ("basicAuth", .obj [("type", .str "http"), ("scheme", .str "basic")])]

/-- The responses of every operation. -/
def operationResponses : Json :=
  .obj [("200", .obj [("description", .str "Successful response.")]),
    ("default", .obj [("description", .str "Error response."),
      ("content", .obj [("application/json",
        .obj [("schema", .obj [("$ref", .str "#/components/schemas/Error")])])])])]

/-- The methods of a rule that are operations: `GET` when it lists none. -/
def operationMethods (rule : Rule) : List String :=
  let methods := match rule.methods with
    | some (m :: ms) => m :: ms
    | _ => ["GET"]
  (methods.dedup.filter (· ∉ ignoredHttpMethods)).mergeSort fun a b => decide (a ≤ b)

/-- `_build_operations`. -/
def buildOperations (rule : Rule) (parameters : List Parameter) : Dict PathOperation :=
  Dict.assign Py.lower
    (fun method =>
      { operationId := operationId rule method
        tags := [tagForPath rule.rule]
        parameters := parameters
        security := if rule.auth = .core "public" then [] else operationSecurity
        responses := operationResponses })
    (operationMethods rule) ∅

/-- `_build_document`; the schemas of the models are those of the introspection. -/
def buildDocument (componentSchemas : List String → Json) (routingMap : List Rule)
    (version : Nat) : Document :=
  let rules := routingMap.filter fun rule =>
    rule.type == "ssi_rest" && ruleMatchesVersion rule.rule version
  { openapi := "3.1.0"
    title := "SSI REST API"
    version := toString version ++ ".0.0"
    paths := (Dict.gather (fun rule => (openapiPath rule.rule).1)
      (fun rule => buildOperations rule (openapiPath rule.rule).2) rules ∅).sorted
    securitySchemes := securitySchemes
    schemas := componentSchemas ((rules.filterMap (·.model)).filter (· ≠ "")) }

/-! ## One rule -/

theorem versionPrefix_versionedPath (version : Nat) (tail : String) :
    versionPrefix (versionedPath version ("/" ++ tail)) =
      some (Nat.toDigits 10 version, tail.toList) := by
  have hpath : versionedPath version ("/" ++ tail) =
      "/api/v" ++ String.ofList (Nat.toDigits 10 version ++ '/' :: tail.toList) := by
    rw [← String.toList_inj]
    simp [versionedPath, pathPrefix]
  have hdigits : ∀ c ∈ Nat.toDigits 10 version, isDecimal c = true :=
    fun c hc => isDecimal_of_mem_toDigits hc
  have hslash : isDecimal '/' = false := by decide +kernel
  have hdrop : ("/api/v" ++ String.ofList (Nat.toDigits 10 version ++ '/' :: tail.toList)).toList.drop
      6 = Nat.toDigits 10 version ++ '/' :: tail.toList := by
    rw [String.toList_append, List.drop_left' (by rfl), String.toList_ofList]
  rw [hpath]
  unfold versionPrefix
  rw [if_pos (startsWith_append _ _), hdrop]
  dsimp only
  rw [takeWhile_append_of_neg hdigits hslash, dropWhile_append_of_neg hdigits hslash,
    if_neg Nat.toDigits_ne_nil]
  rfl

/-- A declared path is under the version it was declared for, and no other. -/
theorem ruleMatchesVersion_versionedPath {path : String} (hpath : startsWith path "/" = true)
    (declared version : Nat) :
    ruleMatchesVersion (versionedPath declared path) version = true ↔ declared = version := by
  obtain ⟨tail, rfl⟩ := exists_of_startsWith hpath
  unfold ruleMatchesVersion
  rw [versionPrefix_versionedPath]
  dsimp only
  rw [ofDecimals_toDigits, beq_iff_eq]

/-- The prefix of a version tells the versions apart. -/
theorem startsWith_versionedPath_iff {path : String} (hpath : startsWith path "/" = true)
    (declared version : Nat) :
    startsWith (versionedPath declared path) (versionedPath version "/") = true ↔
      declared = version := by
  constructor
  · intro h
    obtain ⟨rest, hrest⟩ := exists_of_startsWith h
    have hassoc : versionedPath version "/" ++ rest = versionedPath version ("/" ++ rest) := by
      unfold versionedPath
      rw [String.append_assoc, String.append_assoc, String.append_assoc]
    rw [← ruleMatchesVersion_versionedPath hpath declared version, hrest, hassoc,
      ruleMatchesVersion_versionedPath (startsWith_append _ _)]
  · rintro rfl
    obtain ⟨tail, rfl⟩ := exists_of_startsWith hpath
    have hassoc : versionedPath declared ("/" ++ tail) = versionedPath declared "/" ++ tail := by
      unfold versionedPath
      exact String.append_assoc.symm
    rw [hassoc]
    exact startsWith_append _ _

theorem openapiPath_text (p : Pattern) :
    openapiPath p.text =
      (p.template, (p.items.filterMap Sum.getRight?).map Placeholder.parameter) := by
  unfold openapiPath
  rw [p.items_text]
  rfl

theorem placeholders_erased (p : Pattern) :
    placeholders p.erased =
      ((p.items.filterMap Sum.getRight?).map Placeholder.parameter).map (·.name) := by
  unfold placeholders Pattern.erased
  rw [List.filterMap_map, List.map_map, List.map_filterMap]
  congr 1
  funext x
  cases x <;> rfl

/-- The operations of a declared route are the methods the router serves, of those `GET` alone
when none are declared. -/
theorem mem_operationMethods {r : RestRoute} {pattern method : String} :
    method ∈ operationMethods (r.rule pattern) ↔ method ∉ ignoredHttpMethods ∧
      r.serves method = true ∧ (r.methods = none → method = "GET") := by
  have hserves : r.serves method = true ↔
      ∀ methods, ruleMethods r.methods = some methods → method ∈ methods := serves_iff
  unfold operationMethods RestRoute.rule
  dsimp only
  rw [List.mem_mergeSort, List.mem_filter, List.mem_dedup, decide_eq_true_iff, and_comm, hserves]
  refine and_congr_right fun _ => ?_
  cases hmethods : r.methods with
  | none =>
    constructor
    · intro hin
      exact ⟨fun methods h => (nomatch h), fun _ => List.mem_singleton.mp hin⟩
    · rintro ⟨-, hget⟩
      exact List.mem_singleton.mpr (hget rfl)
  | some declared =>
    rw [and_iff_left (fun h => nomatch h)]
    cases hlisted : ruleMethods (some declared) with
    | none => cases hlisted
    | some listed =>
      cases listed with
      | nil =>
        have hoptions := (mem_ruleMethods hlisted "OPTIONS").mpr (Or.inl (by simp))
        cases hoptions
      | cons m ms =>
        refine ⟨?_, fun h => h _ rfl⟩
        intro hin methods h
        cases h
        exact hin

theorem mem_buildOperations {rule : Rule} {parameters : List Parameter} {key : String} :
    key ∈ buildOperations rule parameters ↔ ∃ method ∈ operationMethods rule, Py.lower method = key := by
  unfold buildOperations
  rw [Dict.mem_assign, or_iff_left (AList.notMem_empty key)]

/-- An operation stands for a method of its rule, and has the parameters of its path. -/
theorem lookup_buildOperations {rule : Rule} {parameters : List Parameter} {key : String}
    {operation : PathOperation}
    (h : (buildOperations rule parameters).lookup key = some operation) :
    operation.parameters = parameters ∧ ∃ method ∈ operationMethods rule, Py.lower method = key := by
  rcases Dict.lookup_assign h with ⟨method, hmethod, hkey, rfl⟩ | hnone
  · exact ⟨rfl, method, hmethod, hkey⟩
  · cases hnone

end SsiRest
