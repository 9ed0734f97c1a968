import SsiRestApi.MethodCall
import SsiRestApi.Oauth.Server
import SsiRestApi.RequestBody

/-!
# Answers of the endpoints

From a request to the answer of its endpoint.  Two endpoints forward the parameters they
do not name; every other one takes `**kwargs` and looks up a fixed list of keys.

    an endpoint that forwards nothing depends on its own keys only   (ReadsOnly)
-/

namespace SsiRest.MethodCall

open Py Tx CustomEndpoint

/-! ## The parameters endpoints read -/

/-- What a function makes of the parameters depends on these keys. -/
def ReadsOnly {α : Type} (keys : List String) (f : Kw → α) : Prop :=
  ∀ kw kw' : Kw, (∀ key ∈ keys, kw.lookup key = kw'.lookup key) → f kw = f kw'

def searchParams : List String := ["domain", "limit", "offset", "order"]

/-- The keys of `_specification_from_query`. -/
def specificationParams : List String := ["specification", "fields", "m2o", "binary", "labels"]

def readGroupParams : List String :=
  ["domain", "groupby", "aggregates", "limit", "offset", "order"]

def authorizeParams : List String :=
  ["client_id", "redirect_uri", "response_type", "code_challenge", "code_challenge_method",
   "scope", "state"]

def tokenParams : List String :=
  ["grant_type", "client_id", "client_secret", "code", "code_verifier", "scope", "refresh_token"]

def revokeParams : List String := ["token", "client_id", "client_secret"]

/-- An endpoint that forwards nothing. -/
structure PlainEndpoint where
  route : RestRoute
  reads : List String

def plainEndpoints : List PlainEndpoint :=
  [⟨Routes.ping, ["echo"]⟩,
   ⟨Routes.authorize, authorizeParams⟩,
   ⟨Routes.token, tokenParams⟩,
   ⟨Routes.revoke, revokeParams⟩,
   ⟨Routes.ormSearch, "model" :: searchParams⟩,
   ⟨Routes.ormRead, "model" :: "ids" :: specificationParams⟩,
   ⟨Routes.ormSearchRead, "model" :: (searchParams ++ specificationParams)⟩,
   ⟨Routes.ormReadGroup, "model" :: readGroupParams⟩,
   ⟨Routes.ormCreate, "model" :: "vals" :: "vals_list" :: specificationParams⟩,
   ⟨Routes.ormWrite, "model" :: "ids" :: "vals" :: specificationParams⟩,
   ⟨Routes.ormUnlink, ["model", "ids"]⟩,
   ⟨Routes.binaryDownload, ["model", "res_id", "field", "filename", "filename_field", "mimetype",
     "download", "width", "height", "crop", "quality", "placeholder"]⟩,
   ⟨Routes.binaryUpload, ["model", "res_id", "field"]⟩,
   ⟨Routes.reportList, ["model"]⟩,
   ⟨Routes.reportRender, ["report_name", "ids"]⟩,
   ⟨Routes.introspectionModels, []⟩,
   ⟨Routes.introspectionModelDetail, ["model"]⟩,
   ⟨Routes.introspectionModelFields, ["model"]⟩,
   ⟨Routes.introspectionRecordMetadata, ["model", "res_id"]⟩,
   ⟨Routes.introspectionServer, []⟩,
   ⟨Routes.introspectionCompany, []⟩,
   ⟨Routes.introspectionAccessRights, ["model"]⟩,
   ⟨Routes.introspectionAccessFields, ["model", "fields"]⟩,
   ⟨Routes.introspectionGroups, []⟩,
   ⟨Routes.introspectionHasGroup, ["group_xmlid"]⟩,
   ⟨Routes.openapiDocument, []⟩,
   ⟨Routes.openapiUi, []⟩]

/-- The endpoint of a matched rule, with the arguments of the path. -/
inductive MatchedEndpoint where
  | ormCall (model method : String)
  | customEndpointCall (subpath : String)
  | plain (endpoint : PlainEndpoint) (declared : endpoint ∈ plainEndpoints) (pathArgs : Kw)

namespace MatchedEndpoint

def restRoute : MatchedEndpoint → RestRoute
  | ormCall _ _ => Routes.ormCall
  | customEndpointCall _ => Routes.customEndpointCall
  | plain endpoint _ _ => endpoint.route

def pathArgs : MatchedEndpoint → Kw
  | ormCall model method => [("model", .str model), ("method", .str method)]
  | customEndpointCall subpath => [("subpath", .str subpath)]
  | plain _ _ pathArgs => pathArgs

/-- The parameters that are not forwarded. -/
def named : MatchedEndpoint → List String
  | ormCall _ _ => ["model", "method", "ids"]
  | customEndpointCall _ => ["subpath", "ids"]
  | plain endpoint _ _ => endpoint.reads

end MatchedEndpoint

theorem restRoutes_eq : Routes.restRoutes =
    (plainEndpoints.take 11).map PlainEndpoint.route ++ Routes.ormCall ::
      (plainEndpoints.drop 11).map PlainEndpoint.route ++ [Routes.customEndpointCall] := rfl

/-- Every endpoint of the repository is one of these. -/
theorem exists_restRoute_eq {r : RestRoute} (h : r ∈ Routes.restRoutes) :
    ∃ e : MatchedEndpoint, e.restRoute = r := by
  have hplain : ∀ endpoint ∈ plainEndpoints, ∃ e : MatchedEndpoint, e.restRoute = endpoint.route :=
    fun endpoint hendpoint => ⟨.plain endpoint hendpoint [], rfl⟩
  rw [restRoutes_eq, List.mem_append, List.mem_append, List.mem_cons, List.mem_singleton] at h
  rcases h with (hfirst | rfl | hlast) | rfl
  · obtain ⟨endpoint, hendpoint, rfl⟩ := List.mem_map.mp hfirst
    exact hplain endpoint (List.mem_of_mem_take hendpoint)
  · exact ⟨.ormCall "" "", rfl⟩
  · obtain ⟨endpoint, hendpoint, rfl⟩ := List.mem_map.mp hlast
    exact hplain endpoint (List.mem_of_mem_drop hendpoint)
  · exact ⟨.customEndpointCall "", rfl⟩

/-! ## Answers -/

/-- A request with the fields and files of its form, which `get_http_params()` puts over the query
string. -/
structure Incoming where
  request : HttpRequest
  form : Kw
  formParams : request.formParams = request.query.update form

/-- What endpoints read of the request itself: none looks for a company there. -/
def Incoming.view (q : Incoming) : RequestView where
  remoteAddr := q.request.remoteAddr
  path := q.request.path
  method := q.request.method
  header name := if lower name = "x-odoo-company" then none else q.request.header name
  form := q.form

/-- The code with its records. -/
structure Installation where
  site : Site
  db : Database
  endpoints : Endpoints
  irModel : List (Row String)
  /-- `json.loads`, or the message of its `ValueError`. -/
  loads : String → Except String Json

variable {σ : Type} (I : Installation) (app : Application σ)

def callerOf (call : Call) : Caller := ⟨call.uid, call.companyId, call.lang⟩

/-- `endpoint(**params)`. -/
def callEndpoint (e : MatchedEndpoint) (q : Incoming) (call : Call) (s : σ) :
    Except Exn (Response × σ) :=
  match bindEndpoint call.params with
  | .error err => .error err
  | .ok () =>
    match e with
    | .ormCall model method => do
      let (body, s) ← ormCall app I.loads (callerOf call) model method (call.params.get "ids")
        (Kw.keywords e.named call.params) s
      pure (makeJsonResponse body [] 200, s)
    | .customEndpointCall subpath => do
      let account ← findAccount I.db.users call.uid
      let (body, s) ← customEndpointCall app I.loads I.db.profiles I.irModel I.endpoints
        (account.principal call.uid) (callerOf call) subpath q.request.method
        (call.params.get "ids") (Kw.keywords e.named call.params) s
      pure (makeJsonResponse body [] 200, s)
    | .plain endpoint _ _ =>
      app.handler endpoint.route.endpoint (callerOf call) q.view
        (fun key => if key ∈ endpoint.reads then call.params.lookup key else none) s

/-- The answer with the state it leaves: a failed request is rolled back. -/
def settle (requestId : String) (details : Exn → Json) (s : σ) :
    Except Exn (Response × σ) → Response × σ
  | .ok answer => answer
  | .error e => (errorResponse requestId (details e) e, s)

/-- A request under a pattern of its endpoint's route. -/
def serveCall (e : MatchedEndpoint) (pattern : String) (q : Incoming) : Except Exn Call :=
  serve I.site I.db (e.restRoute.route pattern) e.pathArgs q.request

def respond (e : MatchedEndpoint) (pattern : String) (q : Incoming) (requestId : String)
    (details : Exn → Json) (s : σ) : Response × σ :=
  settle requestId details s do
    let call ← serveCall I e pattern q
    callEndpoint I app e q call s

/-! ## Endpoints that are modelled -/

theorem get_eq {kw kw' : Kw} {key : String} (h : kw.lookup key = kw'.lookup key) :
    kw.get key = kw'.get key := by
  unfold Kw.get
  rw [h]

theorem ormSearch_readsOnly (env : OrmController.Env) (model : String) :
    ReadsOnly searchParams (OrmController.ormSearch env model) := by
  intro kw kw' h
  simp only [searchParams, List.forall_mem_cons] at h
  obtain ⟨hdomain, hlimit, hoffset, horder, -⟩ := h
  simp only [OrmController.ormSearch, get_eq hdomain, get_eq hlimit, get_eq hoffset, get_eq horder]

theorem serializeQuery_readsOnly (env : OrmController.Env) (model : String) (ids : List Nat) :
    ReadsOnly specificationParams (OrmController.serializeQuery env model ids) := by
  intro kw kw' h
  simp only [specificationParams, List.forall_mem_cons] at h
  obtain ⟨hspecification, hfields, hm2o, hbinary, hlabels, -⟩ := h
  simp only [OrmController.serializeQuery, Serializer.serializeQuery,
    Serializer.specificationFromQuery, Serializer.optionsOf, get_eq hspecification, get_eq hfields,
    get_eq hm2o, get_eq hbinary, get_eq hlabels]

theorem ormSearchRead_readsOnly (env : OrmController.Env) (model : String) :
    ReadsOnly (searchParams ++ specificationParams) (OrmController.ormSearchRead env model) := by
  intro kw kw' h
  have hserialize : ∀ ids, OrmController.serializeQuery env model ids kw =
      OrmController.serializeQuery env model ids kw' := fun ids =>
    serializeQuery_readsOnly env model ids kw kw' fun key hkey => h key (List.mem_append_right _ hkey)
  have hsearch : ∀ key ∈ searchParams, kw.lookup key = kw'.lookup key := fun key hkey =>
    h key (List.mem_append_left _ hkey)
  simp only [searchParams, List.forall_mem_cons] at hsearch
  obtain ⟨hdomain, hlimit, hoffset, horder, -⟩ := hsearch
  simp only [OrmController.ormSearchRead, get_eq hdomain, get_eq hlimit, get_eq hoffset,
    get_eq horder, hserialize]

theorem ormReadGroup_readsOnly (env : OrmController.Env) (model : String) :
    ReadsOnly readGroupParams (OrmController.ormReadGroup env model) := by
  intro kw kw' h
  simp only [readGroupParams, List.forall_mem_cons] at h
  obtain ⟨hdomain, hgroupby, haggregates, hlimit, hoffset, horder, -⟩ := h
  simp only [OrmController.ormReadGroup, get_eq hdomain, get_eq hgroupby, get_eq haggregates,
    get_eq hlimit, get_eq hoffset, get_eq horder]

theorem authorize_readsOnly (P : Platform) (uid : Nat) :
    ReadsOnly authorizeParams (Oauth.authorize P uid) := by
  intro kw kw' h
  simp only [authorizeParams, List.forall_mem_cons] at h
  obtain ⟨hclient, huri, htype, hchallenge, hmethod, hscope, hstate, -⟩ := h
  simp only [Oauth.authorize, get_eq hclient, get_eq huri, get_eq htype, get_eq hchallenge,
    get_eq hmethod, get_eq hscope, get_eq hstate]

theorem extractClientCredentials_readsOnly (authorization : Option String) :
    ReadsOnly ["client_id", "client_secret"] (Oauth.extractClientCredentials authorization) := by
  intro kw kw' h
  simp only [List.forall_mem_cons] at h
  obtain ⟨hid, hsecret, -⟩ := h
  simp only [Oauth.extractClientCredentials, get_eq hid, get_eq hsecret]

theorem token_readsOnly (P : Platform) (authorization : Option String) :
    ReadsOnly tokenParams (Oauth.token P authorization) := by
  intro kw kw' h
  simp only [tokenParams, List.forall_mem_cons] at h
  obtain ⟨hgrant, hid, hsecret, hcode, hverifier, hscope, hrefresh, -⟩ := h
  have hcredentials := extractClientCredentials_readsOnly authorization kw kw'
    (by simp [hid, hsecret])
  simp only [Oauth.token, Oauth.grantType, Oauth.tokenClientCredentials,
    Oauth.clientCredentialsScope, Oauth.tokenAuthorizationCode, Oauth.tokenRefreshToken,
    hcredentials, get_eq hgrant, get_eq hcode, get_eq hverifier, get_eq hscope, get_eq hrefresh]

theorem revoke_readsOnly (P : Platform) (authorization : Option String) :
    ReadsOnly revokeParams (Oauth.revoke P authorization) := by
  intro kw kw' h
  simp only [revokeParams, List.forall_mem_cons] at h
  obtain ⟨htoken, hid, hsecret, -⟩ := h
  have hcredentials := extractClientCredentials_readsOnly authorization kw kw'
    (by simp [hid, hsecret])
  simp only [Oauth.revoke, get_eq htoken, hcredentials]

end SsiRest.MethodCall
