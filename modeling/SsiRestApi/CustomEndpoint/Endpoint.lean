import SsiRestApi.PathSpelling
import SsiRestApi.Routes

/-!
# Custom endpoints

`ssi_rest_endpoint`: its fields, the check of its handler configuration and
`_check_rest_access`.  An endpoint evaluates the profiles attached to it on its own
`path`, the dispatcher evaluates profiles on the path of the request.

    both evaluate alike ↔ some profile lets each of the two paths, or none lets either
                                                             (pathLanguage_iff)
-/

namespace SsiRest.CustomEndpoint

open Py Tx

inductive HttpMethod where
  | GET
  | POST
  | PUT
  | PATCH
  | DELETE
  deriving DecidableEq

def HttpMethod.code : HttpMethod → String
  | GET => "GET"
  | POST => "POST"
  | PUT => "PUT"
  | PATCH => "PATCH"
  | DELETE => "DELETE"

inductive HandlerType where
  | modelMethod
  | serverAction
  deriving DecidableEq

def HandlerType.code : HandlerType → String
  | modelMethod => "model_method"
  | serverAction => "server_action"

/-- `ssi_rest_endpoint`. -/
structure Endpoint where
  active : Bool
  path : String
  httpMethod : HttpMethod
  handlerType : HandlerType
  modelId : Option Nat
  methodName : Option String
  serverActionId : Option Nat
  profileIds : List Nat
  isReadonly : Bool
  deriving DecidableEq

abbrev Endpoints := List (Row Endpoint)

/-! ## The handler configuration -/

/-- `_check_handler_configuration_condition`. -/
def Endpoint.checkHandlerConfigurationCondition (e : Endpoint) : Bool :=
  match e.handlerType with
  | .modelMethod => e.modelId.isSome && (filledIn e.methodName).isSome
  | .serverAction => e.serverActionId.isSome

/-- `_check_handler_configuration` of one record. -/
def checkHandlerConfiguration (r : Row Endpoint) : Except Exn Unit :=
  if r.val.checkHandlerConfigurationCondition then .ok ()
  else .error (.userError .userError 422
    ("Document Type: REST Custom Endpoint\n" ++
      "Context: Create or update REST custom endpoint\n" ++
      "Database ID: " ++ toString r.id ++ "\n" ++
      "Problem: handler_type is '" ++ r.val.handlerType.code ++ "' but " ++
      "the field(s) it requires are not set\n" ++
      "Solution: Fill model_id and method_name for " ++
      "handler_type=model_method, or server_action_id for handler_type=server_action"))

/-! ## Access -/

/-- `_get_target_model_name`, with the `id` and `model` columns of `ir_model`. -/
def getTargetModelName (irModel : List (Row String)) (e : Endpoint) : Option String :=
  e.modelId.bind fun modelId => (irModel.find? fun r => r.id == modelId).map (·.val)

/-- The value of `profile_ids`: archived profiles are left out. -/
def attachedProfiles (profiles : Profiles) (e : Endpoint) : Profiles :=
  profiles.filter fun p => p.val.active && e.profileIds.contains p.id

/-- The profiles attached to the endpoint and applicable to the user. -/
def candidateProfiles (profiles : Profiles) (e : Endpoint) (user : User) : Profiles :=
  (attachedProfiles profiles e).filter fun p =>
    ((getApplicableProfiles profiles user).map (·.id)).contains p.id

/-- `_check_rest_access(user)`. -/
def checkRestAccess (profiles : Profiles) (irModel : List (Row String)) (e : Endpoint)
    (user : User) : Bool :=
  if (attachedProfiles profiles e).isEmpty then true
  else
    let candidates := candidateProfiles profiles e user
    if candidates.isEmpty then false
    else
      let modelName := getTargetModelName irModel e
      candidates.any fun p =>
        p.val.evaluateRequest ⟨e.path, e.httpMethod.code, modelName, some "call"⟩

/-! ## Two path languages -/

/-- The wildcard route of all custom endpoints. -/
def customEndpointRoute (version : Nat) : Route :=
  Routes.customEndpointCall.route (versionedPath version "/x/<path:subpath>")

/-- The request is routed to the endpoint. -/
structure RoutedTo (q : HttpRequest) (version : Nat) (e : Endpoint) : Prop where
  path : q.path = versionedPath version ("/x/" ++ e.path)
  method : q.method = e.httpMethod.code

/-- The rule constrains only `path_pattern` and `invert`. -/
structure PathOnly (rule : ProfileRule) : Prop where
  httpMethods : filledIn rule.httpMethods = none
  modelPattern : filledIn rule.modelPattern = none
  operation : rule.operation = .any

/-- Of what a rule asks, the part about the path. -/
def matchesPath (path : String) (rule : ProfileRule) : Bool :=
  ((filledIn rule.pathPattern).all fun p => fnmatchcase path p) != rule.invert

/-- The endpoint lets the user in exactly when a profile that counts for both allows the request
as the dispatcher describes it. -/
def SamePathLanguage (profiles : Profiles) (irModel : List (Row String)) (e : Endpoint)
    (user : User) (version : Nat) (q : HttpRequest) : Prop :=
  checkRestAccess profiles irModel e user = true ↔
    ∃ p ∈ candidateProfiles profiles e user,
      p.val.evaluateRequest ((customEndpointRoute version).describe q) = true

theorem matchesRequest_eq_matchesPath {rule : ProfileRule} (h : PathOnly rule)
    (d : RequestDescription) : rule.matchesRequest d = matchesPath d.path rule := by
  simp [ProfileRule.matchesRequest, matchesPath, h.httpMethods, h.modelPattern, h.operation]

theorem evaluateRequest_pathOnly_iff {p : AccessProfile} (h : ∀ rule ∈ p.ruleIds, PathOnly rule)
    (d : RequestDescription) : p.evaluateRequest d = true ↔ p.LetsBy (matchesPath d.path) := by
  rw [AccessProfile.evaluateRequest_iff]
  exact AccessProfile.letsBy_congr fun rule hrule => matchesRequest_eq_matchesPath (h rule hrule) d

theorem checkRestAccess_iff {profiles : Profiles} {irModel : List (Row String)} {e : Endpoint}
    {user : User} (hattached : attachedProfiles profiles e ≠ []) :
    checkRestAccess profiles irModel e user = true ↔
      ∃ p ∈ candidateProfiles profiles e user, p.val.evaluateRequest
        ⟨e.path, e.httpMethod.code, getTargetModelName irModel e, some "call"⟩ = true := by
  unfold checkRestAccess
  rw [List.isEmpty_eq_false_iff.mpr hattached, if_neg Bool.false_ne_true]
  by_cases hnone : candidateProfiles profiles e user = []
  · simp [hnone]
  · simp [hnone]

theorem exists_evaluateRequest_iff {profiles : Profiles} {e : Endpoint} {user : User}
    (hrules : ∀ p ∈ attachedProfiles profiles e, ∀ rule ∈ p.val.ruleIds, PathOnly rule)
    (d : RequestDescription) :
    (∃ p ∈ candidateProfiles profiles e user, p.val.evaluateRequest d = true) ↔
      ∃ p ∈ candidateProfiles profiles e user, p.val.LetsBy (matchesPath d.path) := by
  constructor
  · rintro ⟨p, hp, hallow⟩
    exact ⟨p, hp, (evaluateRequest_pathOnly_iff (hrules p (List.mem_filter.mp hp).1) d).mp hallow⟩
  · rintro ⟨p, hp, hlets⟩
    exact ⟨p, hp, (evaluateRequest_pathOnly_iff (hrules p (List.mem_filter.mp hp).1) d).mpr hlets⟩

/-- **Path languages.**  With path-only rules, an endpoint and the dispatcher agree on a request
routed to it exactly when the rules of some attached and applicable profile let the endpoint's
bare path and those of some such profile the path of the request, or those of none let either. -/
theorem pathLanguage_iff {profiles : Profiles} {e : Endpoint}
    {version : Nat} {q : HttpRequest} (irModel : List (Row String)) (user : User)
    (hrouted : RoutedTo q version e) (hattached : attachedProfiles profiles e ≠ [])
    (hrules : ∀ p ∈ attachedProfiles profiles e, ∀ rule ∈ p.val.ruleIds, PathOnly rule) :
    SamePathLanguage profiles irModel e user version q ↔
      ((∃ p ∈ candidateProfiles profiles e user, p.val.LetsBy (matchesPath e.path)) ↔
        ∃ p ∈ candidateProfiles profiles e user,
          p.val.LetsBy (matchesPath (versionedPath version ("/x/" ++ e.path)))) := by
  unfold SamePathLanguage
  rw [checkRestAccess_iff hattached, exists_evaluateRequest_iff hrules,
    exists_evaluateRequest_iff hrules, ← hrouted.path]
  rfl

/-! ## A pattern as it is documented -/

/-- Closes a quarter of the sales; attached to one profile. -/
def closeSale : Endpoint where
  active := true
  path := "sales/close"
  httpMethod := .POST
  handlerType := .modelMethod
  modelId := some 1
  methodName := some "action_close"
  serverActionId := none
  profileIds := [1]
  isReadonly := false

def closeSaleRequest : HttpRequest :=
  { keyedRequest with path := "/api/v1/x/sales/close", method := "POST" }

/-- User 7 may reach the paths of a pattern and no others. -/
def onlyPattern (pattern : String) : Profiles :=
  [⟨1, ⟨true, .deny, [⟨1, .allow, some pattern, false, none, none, .any⟩], [7], []⟩⟩]

theorem closeSale_routed : RoutedTo closeSaleRequest 1 closeSale := ⟨by decide, rfl⟩

theorem onlyPattern_pathOnly (pattern : String) :
    ∀ p ∈ attachedProfiles (onlyPattern pattern) closeSale, ∀ rule ∈ p.val.ruleIds,
      PathOnly rule := by
  intro p hp rule hrule
  cases List.mem_singleton.mp (List.mem_filter.mp hp).1
  cases List.mem_singleton.mp hrule
  exact ⟨rfl, rfl, rfl⟩

/-- Both languages agree on a pattern that begins with a star. -/
theorem pathLanguage_star :
    SamePathLanguage (onlyPattern "*sales/*") [] closeSale employee 1 closeSaleRequest := by
  have hlets : ∀ path, matchesPath path ⟨1, .allow, some "*sales/*", false, none, none, .any⟩ = true →
      ∃ p ∈ candidateProfiles (onlyPattern "*sales/*") closeSale employee,
        p.val.LetsBy (matchesPath path) := fun path hmatches =>
    ⟨_, List.mem_singleton.mpr rfl,
      Or.inl ⟨[], _, [], rfl, List.forall_mem_nil _, hmatches, rfl⟩⟩
  exact (pathLanguage_iff [] employee closeSale_routed (by decide) (onlyPattern_pathOnly _)).mpr
    (iff_of_true (hlets _ (by decide)) (hlets _ (by decide)))

/-- Under the documented pattern the dispatcher allows what the endpoint refuses. -/
theorem not_samePathLanguage :
    RoutedTo closeSaleRequest 1 closeSale ∧
      attachedProfiles (onlyPattern "/api/v1/x/sales/*") closeSale ≠ [] ∧
      (∀ p ∈ attachedProfiles (onlyPattern "/api/v1/x/sales/*") closeSale,
        ∀ rule ∈ p.val.ruleIds, PathOnly rule) ∧
      ¬ SamePathLanguage (onlyPattern "/api/v1/x/sales/*") [] closeSale employee 1
        closeSaleRequest := by
  refine ⟨closeSale_routed, by decide, onlyPattern_pathOnly _, fun hsame => ?_⟩
  have hrefused : checkRestAccess (onlyPattern "/api/v1/x/sales/*") [] closeSale employee = false :=
    by decide
  have hallowed : checkRestAccess (onlyPattern "/api/v1/x/sales/*") [] closeSale employee = true :=
    hsame.mpr ⟨_, List.mem_singleton.mpr rfl, by decide⟩
  rw [hrefused] at hallowed
  cases hallowed

end SsiRest.CustomEndpoint
