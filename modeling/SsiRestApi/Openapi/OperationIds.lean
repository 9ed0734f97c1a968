import SsiRestApi.Openapi.Document
import SsiRestApi.Routes

/-!
# Operation ids

`_operation_id` joins the operation, the endpoint and the method with underscores; the path
is no part of it.

    the ids of a document are distinct ↔ no names and method are described under two
      templates, and none are joined to the same words as others (distinctIds_iff)
-/

namespace SsiRest

open Py

/-- The operation ids of a document are pairwise distinct. -/
def Document.DistinctIds (d : Document) : Prop :=
  ∀ template key operation template' key' operation',
    d.paths.cell template key = some operation → d.paths.cell template' key' = some operation' →
    operation.operationId = operation'.operationId → template = template' ∧ key = key'

/-! ## Names -/

/-- What an operation id is made of; the method is in lower case. -/
def nameParts (rule : Rule) (key : String) : List String :=
  [rule.operation.getD "", rule.endpoint, key].filter (· ≠ "")

/-- The words between the underscores of the parts. -/
def nameWords (rule : Rule) (key : String) : List String := (nameParts rule key).flatMap (splitOn '_')

/-- The rules of a version. -/
def documentedRules (routingMap : List Rule) (version : Nat) : List Rule :=
  routingMap.filter fun rule => rule.type == "ssi_rest" && ruleMatchesVersion rule.rule version

/-- The rule that describes a method under a template: the last that has them. -/
def describer (rules : List Rule) (template key : String) : Option Rule :=
  rules.reverse.find? fun rule =>
    (openapiPath rule.rule).1 == template && ((operationMethods rule).map Py.lower).contains key

/-- What rules must be for their operation ids to tell the operations apart. -/
structure Identified (rules : List Rule) : Prop where
  /-- The same names and method are described under one template only. -/
  templates : ∀ key template rule template' rule', describer rules template key = some rule →
    describer rules template' key = some rule' →
    rule.operation.getD "" = rule'.operation.getD "" → rule.endpoint = rule'.endpoint →
    template = template'
  /-- No names and method have the words of others. -/
  words : ∀ template key rule template' key' rule', describer rules template key = some rule →
    describer rules template' key' = some rule' → nameWords rule key = nameWords rule' key' →
    rule.operation.getD "" = rule'.operation.getD "" ∧ rule.endpoint = rule'.endpoint ∧ key = key'

/-! ## What the document has -/

theorem operationId_eq (rule : Rule) (method : String) :
    operationId rule method = Py.join (String.singleton '_') (nameParts rule (Py.lower method)) := rfl

theorem nameParts_ne_empty (rule : Rule) (key : String) : "" ∉ nameParts rule key := by
  simp [nameParts]

/-- The id of an operation is made of its rule's names and its method. -/
theorem operationId_of_lookup {rule : Rule} {parameters : List Parameter} {key : String}
    {operation : PathOperation}
    (h : (buildOperations rule parameters).lookup key = some operation) :
    operation.operationId = Py.join (String.singleton '_') (nameParts rule key) := by
  rcases Dict.lookup_assign h with ⟨method, -, rfl, rfl⟩ | hnone
  · exact operationId_eq rule method
  · cases hnone

/-- What the document has for a method under a template is what the last rule made of it. -/
theorem cell_buildDocument (componentSchemas : List String → Json) (routingMap : List Rule)
    (version : Nat) (template key : String) :
    (buildDocument componentSchemas routingMap version).paths.cell template key =
      (describer (documentedRules routingMap version) template key).bind fun rule =>
        (buildOperations rule (openapiPath rule.rule).2).lookup key := by
  have hlisted : ∀ rule : Rule,
      decide (key ∈ buildOperations rule (openapiPath rule.rule).2) =
        ((operationMethods rule).map Py.lower).contains key := by
    intro rule
    rw [Bool.eq_iff_iff, decide_eq_true_iff, mem_buildOperations, List.contains_iff_mem, List.mem_map]
  unfold buildDocument describer
  rw [Dict.cell_sorted, Dict.cell_gather_eq]
  simp only [hlisted]
  rfl

variable {componentSchemas : List String → Json} {routingMap : List Rule} {version : Nat}
  {template key : String}

/-- An operation of the document has a rule that describes it and names it. -/
theorem exists_describer {operation : PathOperation}
    (h : (buildDocument componentSchemas routingMap version).paths.cell template key =
      some operation) :
    ∃ rule, describer (documentedRules routingMap version) template key = some rule ∧
      operation.operationId = Py.join (String.singleton '_') (nameParts rule key) := by
  rw [cell_buildDocument] at h
  obtain ⟨rule, hrule, hlookup⟩ := Option.bind_eq_some_iff.mp h
  exact ⟨rule, hrule, operationId_of_lookup hlookup⟩

/-- A rule that describes an operation names one of the document. -/
theorem exists_operation {rule : Rule}
    (h : describer (documentedRules routingMap version) template key = some rule) :
    ∃ operation, (buildDocument componentSchemas routingMap version).paths.cell template key =
      some operation ∧
      operation.operationId = Py.join (String.singleton '_') (nameParts rule key) := by
  have hmatch := List.find?_some h
  rw [Bool.and_eq_true, List.contains_iff_mem, List.mem_map] at hmatch
  have hkey : key ∈ buildOperations rule (openapiPath rule.rule).2 :=
    mem_buildOperations.mpr hmatch.2
  obtain ⟨operation, hlookup⟩ := Option.isSome_iff_exists.mp (AList.lookup_isSome.mpr hkey)
  refine ⟨operation, ?_, operationId_of_lookup hlookup⟩
  rw [cell_buildDocument, h]
  exact hlookup

/-- Distinct ids are of rules that names and words tell apart. -/
theorem identified_of_distinctIds
    (h : (buildDocument componentSchemas routingMap version).DistinctIds) :
    Identified (documentedRules routingMap version) where
  templates := by
    intro key template rule template' rule' hrule hrule' hoperation hendpoint
    obtain ⟨operation, hcell, hid⟩ := exists_operation hrule
    obtain ⟨operation', hcell', hid'⟩ := exists_operation hrule'
    have hparts : nameParts rule key = nameParts rule' key := by
      unfold nameParts
      rw [hoperation, hendpoint]
    exact (h _ _ _ _ _ _ hcell hcell' (by rw [hid, hid', hparts])).1
  words := by
    intro template key rule template' key' rule' hrule hrule' hwords
    obtain ⟨operation, hcell, hid⟩ := exists_operation hrule
    obtain ⟨operation', hcell', hid'⟩ := exists_operation hrule'
    have hjoin := (join_eq_join_iff (nameParts_ne_empty rule key)
      (nameParts_ne_empty rule' key')).mpr hwords
    obtain ⟨rfl, rfl⟩ := h _ _ _ _ _ _ hcell hcell' (by rw [hid, hid', hjoin])
    -- a method under a template has one describer
    cases hrule.symm.trans hrule'
    exact ⟨rfl, rfl, rfl⟩

/-- Such rules have distinct ids. -/
theorem distinctIds_of_identified (h : Identified (documentedRules routingMap version)) :
    (buildDocument componentSchemas routingMap version).DistinctIds := by
  intro template key operation template' key' operation' hcell hcell' hids
  obtain ⟨rule, hrule, hid⟩ := exists_describer hcell
  obtain ⟨rule', hrule', hid'⟩ := exists_describer hcell'
  rw [hid, hid'] at hids
  have hwords := (join_eq_join_iff (nameParts_ne_empty rule key)
    (nameParts_ne_empty rule' key')).mp hids
  obtain ⟨hoperation, hendpoint, rfl⟩ := h.words _ _ _ _ _ _ hrule hrule' hwords
  exact ⟨h.templates _ _ _ _ _ hrule hrule' hoperation hendpoint, rfl⟩

/-- **Operation ids.**  They are pairwise distinct exactly when no two templates have a method that
is described under the same names, and no names and method have the words of others. -/
theorem distinctIds_iff (componentSchemas : List String → Json) (routingMap : List Rule)
    (version : Nat) :
    (buildDocument componentSchemas routingMap version).DistinctIds ↔
      Identified (documentedRules routingMap version) :=
  ⟨identified_of_distinctIds, distinctIds_of_identified⟩

/-! ## Two paths -/

/-- A route under two paths, as in the docstring of `rest_route`. -/
def pingTwice : RestRoute := { Routes.ping with paths := ["/ping", "/ping/"] }

theorem not_distinctIds_pingTwice :
    ¬ (buildDocument (fun _ => .null) (pingTwice.rules.toOption.getD []) 1).DistinctIds := by
  intro hids
  have h := identified_of_distinctIds hids
  have hnames : ∀ template ∈ ["/api/v1/ping", "/api/v1/ping/"],
      (describer (documentedRules (pingTwice.rules.toOption.getD []) 1) template "get").map
        (fun rule => (rule.operation, rule.endpoint)) = some (some "ping", "ping") := by
    decide +kernel
  obtain ⟨rule, hrule, heq⟩ := Option.map_eq_some_iff.mp (hnames "/api/v1/ping" (by decide))
  obtain ⟨rule', hrule', heq'⟩ := Option.map_eq_some_iff.mp (hnames "/api/v1/ping/" (by decide))
  obtain ⟨hoperation, hendpoint⟩ := Prod.mk.inj heq
  obtain ⟨hoperation', hendpoint'⟩ := Prod.mk.inj heq'
  have htemplates := h.templates "get" _ rule _ rule' hrule hrule'
    (by rw [hoperation, hoperation']) (hendpoint.trans hendpoint'.symm)
  exact absurd htemplates (by decide)

end SsiRest
