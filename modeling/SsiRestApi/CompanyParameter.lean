import SsiRestApi.CompanyContext
import SsiRestApi.EndpointCall
import SsiRestApi.Extraction
import SsiRestApi.Lib.Query

/-!
# Selecting a company by header and by parameter

The company of a request comes from its `X-Odoo-Company` header, else from its
`company_id` parameter.  The parameter stays among those the endpoint is called with, and
an endpoint that forwards what it does not name hands it on to the model method.

    both selections are answered alike by every application with the same models and
      methods ↔ the request does not reach a method, or the method is given `company_id`
      in its place anyway
                                                              (companySelection_iff)
-/

namespace SsiRest.MethodCall

open Py Tx CustomEndpoint

/-! ## The two requests -/

/-- The request with the header. -/
def Incoming.withCompanyHeader (q : Incoming) (c : String) : Incoming where
  request := { q.request with headers := q.request.headers ++ [("X-Odoo-Company", c)] }
  form := q.form
  formParams := q.formParams

/-- The request with the parameter in its query string. -/
def HttpRequest.withCompanyArg (q : HttpRequest) (c : String) : HttpRequest :=
  { q with args := setItem q.args ("company_id", c) }

def Incoming.withCompanyQuery (q : Incoming) (c : String) : Incoming where
  request :=
    { HttpRequest.withCompanyArg q.request c with
      formParams := (HttpRequest.withCompanyArg q.request c).query.update q.form }
  form := q.form
  formParams := rfl

/-- Requests that agree on all but the header and the parameter. -/
structure SameElsewhere (q q' : HttpRequest) : Prop where
  remoteAddr : q.remoteAddr = q'.remoteAddr
  path : q.path = q'.path
  method : q.method = q'.method
  headers : ∀ name, lower name ≠ "x-odoo-company" → q.header name = q'.header name
  args : ∀ key, key ≠ "company_id" → q.args.lookup key = q'.args.lookup key
  mimetype : q.mimetype = q'.mimetype
  formParams : ∀ key, key ≠ "company_id" → q.formParams.lookup key = q'.formParams.lookup key
  contentLength : q.contentLength = q'.contentLength
  jsonData : q.jsonData = q'.jsonData

/-- The core identifies users and prepares requests without looking at either. -/
structure IgnoresCompany (site : Site) : Prop where
  coreAuth : ∀ method db q q', SameElsewhere q q' →
    site.coreAuth method db q = site.coreAuth method db q'
  corePreDispatch : ∀ q q', SameElsewhere q q' → site.corePreDispatch q = site.corePreDispatch q'

/-- The providers of a site are those of the repository. -/
def Ships (site : Site) : Prop :=
  ∀ model provider, site.registry model = some provider → (model, provider) ∈ restAuthenticators

/-! ## Interchangeability -/

variable {σ : Type} (I : Installation)

/-- Whatever the methods of the models do, both requests are answered alike and leave the same
state. -/
def Interchangeable (catalog : Catalog) (e : MatchedEndpoint) (pattern : String) (q : Incoming)
    (c : String) (s : σ) : Prop :=
  ∀ (app : Application σ), app.catalog = catalog → ∀ (requestId : String) (details : Exn → Json),
    respond I app e pattern (q.withCompanyHeader c) requestId details s =
      respond I app e pattern (q.withCompanyQuery c) requestId details s

/-- The endpoint finds a method to forward to. -/
def Forwards (catalog : Catalog) (e : MatchedEndpoint) (httpMethod : String) (uid : Nat) : Prop :=
  match e with
  | .ormCall model method => catalog.Lists model (some method)
  | .customEndpointCall subpath =>
    ∃ account endpoint name, findAccount I.db.users uid = .ok account ∧
      allowedEndpoint I.db.profiles I.irModel I.endpoints (account.principal uid) subpath httpMethod =
        .ok endpoint ∧
      endpoint.val.handlerType = .modelMethod ∧
      filledIn (getTargetModelName I.irModel endpoint.val) = some name ∧
      catalog.Lists name endpoint.val.methodName
  | .plain _ _ _ => False

/-- The request is served up to the model method: it passes the checks, the endpoint forwards and
the ids can be read. -/
def ReachesMethod (catalog : Catalog) (e : MatchedEndpoint) (pattern : String) (q : Incoming) : Prop :=
  ∃ call, serveCall I e pattern q = .ok call ∧ call.params.lookup "self" = none ∧
    Forwards I catalog e q.request.method call.uid ∧
    ∃ records, parseIds I.loads (call.params.get "ids") = .ok records

/-- The fields of the body. -/
def bodyFields (q : Incoming) : Except Exn Kw :=
  if formMimetypes.contains q.request.mimetype then .ok q.form else jsonFields q.request

/-- The method is given `company_id` without the selection: the body has it, ahead of all else that
it adds to the query string; or the query string has it, with the same value or under that of the
body. -/
def Supplied (e : MatchedEndpoint) (q : Incoming) (c : String) : Prop :=
  ∀ fields, bodyFields q = .ok fields →
    match q.request.args.lookup "company_id" with
    | none => (Kw.added e.named q.request.query fields).head?.map Prod.fst = some "company_id"
    | some sent => (fields.lookup "company_id").isSome ∨ sent = c

/-! ## What the requests have in common -/

variable {I} {catalog : Catalog} {q : Incoming} {c : String}

theorem header_append {q : HttpRequest} {name value other : String}
    (h : lower other ≠ lower name) :
    ({ q with headers := q.headers ++ [(name, value)] } : HttpRequest).header other =
      q.header other := by
  have hb : (lower name == lower other) = false := beq_false_of_ne (Ne.symm h)
  unfold HttpRequest.header
  dsimp only
  rw [List.find?_append, List.find?_cons_of_neg (by simp [hb]), List.find?_nil, Option.or_none]

theorem header_append_self {q : HttpRequest} {name : String} (h : q.header name = none)
    (value : String) :
    ({ q with headers := q.headers ++ [(name, value)] } : HttpRequest).header name =
      some value := by
  have hnone : (q.headers.find? fun h => lower h.1 == lower name) = none :=
    Option.map_eq_none_iff.mp h
  unfold HttpRequest.header
  dsimp only
  rw [List.find?_append, hnone]
  simp

theorem lookup_query_withCompanyArg (q : HttpRequest) (c key : String) :
    (HttpRequest.withCompanyArg q c).query.lookup key =
      if key = "company_id" then some (.str c) else q.query.lookup key := by
  rw [lookup_query, lookup_query, HttpRequest.withCompanyArg, lookup_setItem, apply_ite (Option.map _)]
  rfl

theorem sameElsewhere (q : Incoming) (c : String) :
    SameElsewhere (q.withCompanyHeader c).request (q.withCompanyQuery c).request where
  remoteAddr := rfl
  path := rfl
  method := rfl
  headers name hname := header_append (by rwa [show lower "X-Odoo-Company" = "x-odoo-company" by decide])
  args key hkey := by
    change q.request.args.lookup key = (setItem q.request.args ("company_id", c)).lookup key
    rw [lookup_setItem, if_neg hkey]
  mimetype := rfl
  formParams key hkey := by
    rw [(q.withCompanyHeader c).formParams, (q.withCompanyQuery c).formParams, Kw.lookup_update,
      Kw.lookup_update]
    change _ = ((q.form).lookup key).or ((HttpRequest.withCompanyArg q.request c).query.lookup key)
    rw [lookup_query_withCompanyArg, if_neg hkey]
    rfl
  contentLength := rfl
  jsonData := rfl

theorem extract_sameElsewhere {model : String} {provider : Provider}
    (hmem : (model, provider) ∈ restAuthenticators) {q q' : HttpRequest} (h : SameElsewhere q q') :
    provider.extract q = provider.extract q' := by
  have hauthorization : ∀ pre, authorizationValue q pre = authorizationValue q' pre := by
    intro pre
    unfold authorizationValue
    rw [h.headers "Authorization" (by decide)]
  simp only [restAuthenticators, List.mem_cons, Prod.mk.injEq, List.not_mem_nil, or_false] at hmem
  rcases hmem with ⟨-, rfl⟩ | ⟨-, rfl⟩ | ⟨-, rfl⟩ | ⟨-, rfl⟩ | ⟨-, rfl⟩
  · simp only [ssiRestAuthBasic, hauthorization]
  · simp only [ssiRestAuthBearer, extractBearer, hauthorization]
  · simp only [ssiRestAuthApikey, h.headers "X-Api-Key" (by decide)]
  · simp only [ssiRestAuthJwt, extractBearer, hauthorization]
  · simp only [ssiRestAuthOauth2, extractBearer, hauthorization]

theorem extractAll_sameElsewhere {site : Site} (hships : Ships site) {q q' : HttpRequest}
    (h : SameElsewhere q q') (schemes : List (String × String)) :
    extractAll site.registry q schemes = extractAll site.registry q' schemes := by
  induction schemes with
  | nil => rfl
  | cons scheme schemes ih =>
    obtain ⟨code, model⟩ := scheme
    rw [extractAll, extractAll, ih]
    cases hprovider : site.registry model with
    | none => rfl
    | some provider =>
      dsimp only
      rw [extract_sameElsewhere (hships model provider hprovider) h]

/-- The requests run as one user. -/
theorem identify_sameElsewhere {site : Site} (hsite : IgnoresCompany site) (hships : Ships site)
    {q q' : HttpRequest} (h : SameElsewhere q q') (db : Database) (route : Route) :
    identify site db route q = identify site db route q' := by
  have hmethod : authMethodSsiRest site db route q = authMethodSsiRest site db route q' := by
    unfold authMethodSsiRest
    dsimp only
    rw [extractAll_sameElsewhere hships h]
  unfold identify authenticate
  rw [hmethod]
  cases route.auth with
  | ssiRest => rfl
  | core method =>
    dsimp only
    rw [hsite.coreAuth method db q q' h]

theorem requestedCompany_withCompanyHeader (hheader : q.request.header "X-Odoo-Company" = none) :
    requestedCompany (q.withCompanyHeader c).request = some c := by
  unfold requestedCompany Incoming.withCompanyHeader
  rw [header_append_self hheader]
  rfl

theorem requestedCompany_withCompanyQuery (hheader : q.request.header "X-Odoo-Company" = none) :
    requestedCompany (q.withCompanyQuery c).request = some c := by
  unfold requestedCompany
  rw [show (q.withCompanyQuery c).request.header "X-Odoo-Company" =
    q.request.header "X-Odoo-Company" from rfl, hheader, Option.none_or]
  change (setItem q.request.args ("company_id", c)).lookup "company_id" = some c
  rw [lookup_setItem, if_pos rfl]

theorem mergeParams_eq (q : Incoming) (pathArgs : Kw) :
    mergeParams q.request pathArgs =
      (bodyFields q).map fun fields => (q.request.query.update fields).update pathArgs := by
  unfold bodyFields
  by_cases hform : q.request.mimetype ∈ formMimetypes
  · rw [mergeParams_form hform, if_pos (List.contains_iff_mem.mpr hform), q.formParams]
    rfl
  · rw [mergeParams_text hform, if_neg fun h => hform (List.contains_iff_mem.mp h)]

/-- Both requests fail alike before their endpoint, or call it in one environment with what their
query strings, the body and the path give. -/
theorem serveCall_selections (hsite : IgnoresCompany I.site) (hships : Ships I.site)
    (hheader : q.request.header "X-Odoo-Company" = none) (e : MatchedEndpoint) (pattern : String) :
    (∃ exn, serveCall I e pattern (q.withCompanyHeader c) = .error exn ∧
      serveCall I e pattern (q.withCompanyQuery c) = .error exn) ∨
    ∃ uid companyId lang fields, bodyFields q = .ok fields ∧
      serveCall I e pattern (q.withCompanyHeader c) =
        .ok ⟨uid, companyId, lang, (q.request.query.update fields).update e.pathArgs⟩ ∧
      serveCall I e pattern (q.withCompanyQuery c) = .ok ⟨uid, companyId, lang,
        ((HttpRequest.withCompanyArg q.request c).query.update fields).update e.pathArgs⟩ := by
  have hsame := sameElsewhere q c
  have hcompany : ∀ user, resolveCompany I.db user (q.withCompanyHeader c).request =
      resolveCompany I.db user (q.withCompanyQuery c).request :=
    resolveCompany_congr ((requestedCompany_withCompanyHeader hheader).trans
      (requestedCompany_withCompanyQuery hheader).symm) I.db
  have hlang : resolveLang I.db (q.withCompanyHeader c).request =
      resolveLang I.db (q.withCompanyQuery c).request := by
    unfold resolveLang
    rw [hsame.headers "Accept-Language" (by decide)]
  rcases serve_alike (identify_sameElsewhere hsite hships hsame I.db (e.restRoute.route pattern))
    (hsite.corePreDispatch _ _ hsame) rfl hcompany hlang e.pathArgs with
    hfails | ⟨uid, companyId, lang, hfirst, hsecond⟩
  · exact Or.inl hfails
  · unfold serveCall
    rw [hfirst, hsecond, mergeParams_eq, mergeParams_eq,
      show bodyFields (q.withCompanyHeader c) = bodyFields q from rfl,
      show bodyFields (q.withCompanyQuery c) = bodyFields q from rfl]
    cases bodyFields q with
    | error exn => exact Or.inl ⟨exn, rfl, rfl⟩
    | ok fields => exact Or.inr ⟨uid, companyId, lang, fields, rfl, rfl, rfl⟩

/-! ## The keyword arguments -/

/-- A method is given the same keyword arguments exactly when it is given `company_id` without the
selection. -/
theorem keywords_withCompanyArg_iff {q : HttpRequest} {c : String} {named : List String}
    {pathArgs fields : Kw} (hnamed : "company_id" ∉ named) (hpath : ∀ f ∈ pathArgs, f.1 ∈ named) :
    Kw.keywords named ((q.query.update fields).update pathArgs) =
        Kw.keywords named (((HttpRequest.withCompanyArg q c).query.update fields).update pathArgs) ↔
      match q.args.lookup "company_id" with
      | none => (Kw.added named q.query fields).head?.map Prod.fst = some "company_id"
      | some sent => (fields.lookup "company_id").isSome ∨ sent = c := by
  rw [Kw.keywords_update_of_named hpath, Kw.keywords_update_of_named hpath]
  cases hsent : q.args.lookup "company_id" with
  | none =>
    have hquery : (HttpRequest.withCompanyArg q c).query = q.query ++ [("company_id", .str c)] := by
      unfold HttpRequest.withCompanyArg HttpRequest.query
      dsimp only
      rw [setItem_of_lookup_none hsent, List.map_append]
      rfl
    rw [hquery]
    exact Kw.keywords_append_iff hnamed (by rw [lookup_query, hsent]; rfl) fields (.str c)
  | some sent =>
    have hkeys : q.query.map Prod.fst = (HttpRequest.withCompanyArg q c).query.map Prod.fst := by
      have hfst := map_fst_setItem (p := ("company_id", c)) (by rw [hsent]; rfl)
      unfold HttpRequest.withCompanyArg HttpRequest.query
      rw [List.map_map, List.map_map]
      exact hfst.symm
    have hothers : ∀ key, key ≠ "company_id" →
        q.query.lookup key = (HttpRequest.withCompanyArg q c).query.lookup key := by
      intro key hkey
      rw [lookup_query_withCompanyArg, if_neg hkey]
    rw [Kw.keywords_assign_iff hnamed hkeys (by rw [lookup_query, hsent]; rfl)
      (by rw [lookup_query_withCompanyArg, if_pos rfl]) hothers, Json.str.injEq]

/-! ## Answers -/

/-- Endpoints see one request. -/
theorem view_withCompanyHeader (q : Incoming) (c : String) :
    (q.withCompanyHeader c).view = (q.withCompanyQuery c).view := by
  have hheaders : ∀ name,
      (if lower name = "x-odoo-company" then none
        else (q.withCompanyHeader c).request.header name) =
      if lower name = "x-odoo-company" then none
        else (q.withCompanyQuery c).request.header name := by
    intro name
    by_cases hname : lower name = "x-odoo-company"
    · rw [if_pos hname, if_pos hname]
    · rw [if_neg hname, if_neg hname, (sameElsewhere q c).headers name hname]
  unfold Incoming.view
  simp only [hheaders]
  rfl

/-- No endpoint reads the parameter. -/
theorem companyId_not_read : ∀ endpoint ∈ plainEndpoints, "company_id" ∉ endpoint.reads := by
  decide

/-- An endpoint answers two calls alike that differ in `company_id` only, unless it forwards it. -/
theorem callEndpoint_congr {app : Application σ} (happ : app.catalog = catalog)
    {e : MatchedEndpoint} {q q' : Incoming} {uid companyId : Nat} {lang : Option String}
    {params params' : Kw}
    (hview : q.view = q'.view)
    (hlookup : ∀ key, key ≠ "company_id" → params.lookup key = params'.lookup key)
    (hforwards : params.lookup "self" = none → Forwards I catalog e q.request.method uid →
      (∃ records, parseIds I.loads (params.get "ids") = .ok records) →
      Kw.keywords e.named params = Kw.keywords e.named params') (s : σ) :
    callEndpoint I app e q ⟨uid, companyId, lang, params⟩ s =
      callEndpoint I app e q' ⟨uid, companyId, lang, params'⟩ s := by
  subst happ
  have hmethod : q.request.method = q'.request.method := congrArg RequestView.method hview
  have hids : params.get "ids" = params'.get "ids" := get_eq (hlookup "ids" (by decide))
  have hself' := hlookup "self" (by decide)
  unfold callEndpoint
  dsimp only
  cases hself : params.lookup "self" with
  | some v =>
    rw [hself] at hself'
    rw [bindEndpoint_of_some hself, bindEndpoint_of_some hself'.symm]
  | none =>
    rw [hself] at hself'
    rw [bindEndpoint_of_none hself, bindEndpoint_of_none hself'.symm]
    dsimp only
    cases e with
    | ormCall model method =>
      dsimp only
      rw [← hids, ormCall_congr app I.loads (hforwards hself)]
      rfl
    | customEndpointCall subpath =>
      dsimp only
      rw [← hids, ← hmethod]
      cases haccount : findAccount I.db.users uid with
      | error exn => rfl
      | ok account =>
        dsimp only [bind, Except.bind]
        rw [customEndpointCall_congr app I.loads fun endpoint name hallowed htype hname hlists =>
          hforwards hself ⟨account, endpoint, name, haccount, hallowed, htype, hname, hlists⟩]
        rfl
    | plain endpoint declared pathArgs =>
      have hreads := companyId_not_read endpoint declared
      have hargs : (fun key => if key ∈ endpoint.reads then params.lookup key else none) =
          fun key => if key ∈ endpoint.reads then params'.lookup key else none := by
        funext key
        by_cases hkey : key ∈ endpoint.reads
        · rw [if_pos hkey, if_pos hkey, hlookup key fun h => hreads (h ▸ hkey)]
        · rw [if_neg hkey, if_neg hkey]
      dsimp only
      rw [hargs, hview]
      rfl

/-- A method that takes any keyword arguments and returns them. -/
def echo : Method σ where
  bind _ := .ok ()
  body _ _ kwargs s := .ok (.value (.obj kwargs), s)

/-- An application whose methods all return their keyword arguments. -/
def echoApplication (catalog : Catalog) : Application σ where
  models model := (catalog model).map fun target method => (target method).map fun _ => echo
  repr _ := ""
  serverAction _ _ _ s := .ok (.value .null, s)
  handler _ _ _ _ s := .ok (makeJsonResponse .null [] 200, s)

theorem models_echoApplication (model : String) :
    (echoApplication catalog : Application σ).models model =
      (catalog model).map fun target method => (target method).map fun _ => echo := rfl

theorem catalog_echoApplication : (echoApplication catalog : Application σ).catalog = catalog := by
  funext model
  rw [Application.catalog, models_echoApplication, Option.map_map]
  cases catalog model with
  | none => rfl
  | some target =>
    refine congrArg some (funext fun method => ?_)
    show ((target method).map fun _ => (echo : Method σ)).map (fun _ => ()) = target method
    cases target method <;> rfl

/-- It has every method of the catalog. -/
theorem echoApplication_lists {model : String} {method : Option String}
    (h : catalog.Lists model method) :
    ∃ target : PublicMethods σ, (echoApplication catalog).models model = some target ∧
      getPublicMethod target method = .ok echo := by
  obtain ⟨target, hmodel, hmethod⟩ := h
  refine ⟨fun method => (target method).map fun _ => echo, ?_, ?_⟩
  · rw [models_echoApplication, hmodel]
    rfl
  · rw [getPublicMethod, hmethod]
    rfl

/-- Its answer to a forwarded call shows them. -/
theorem callEndpoint_echo {e : MatchedEndpoint} {q : Incoming} (call : Call)
    (hself : call.params.lookup "self" = none)
    (hforwards : Forwards I catalog e q.request.method call.uid)
    (hids : ∃ records, parseIds I.loads (call.params.get "ids") = .ok records) (s : σ) :
    callEndpoint I (echoApplication catalog) e q call s =
      .ok (makeJsonResponse (.obj [("result", .obj (Kw.keywords e.named call.params))]) [] 200,
        s) := by
  obtain ⟨records, hids⟩ := hids
  unfold callEndpoint
  rw [bindEndpoint_of_none hself]
  cases e with
  | ormCall model method =>
    obtain ⟨target, hmodel, hmethod⟩ := echoApplication_lists (σ := σ) hforwards
    dsimp only
    simp only [ormCall, OrmController.resolveModel, hmodel, hmethod, hids, bind, Except.bind]
    rfl
  | customEndpointCall subpath =>
    obtain ⟨account, endpoint, name, haccount, hallowed, htype, hname, hlists⟩ := hforwards
    obtain ⟨target, hmodel, hmethod⟩ := echoApplication_lists (σ := σ) hlists
    simp only [haccount, customEndpointCall, hallowed, runHandler, htype, runModelMethod, targetModel,
      hname, hmodel, hmethod, hids, bind, Except.bind]
    rfl
  | plain endpoint declared pathArgs => cases hforwards

/-! ## When the selections are interchangeable -/

/-- An endpoint that forwards has names for all arguments of its path, and none for the company. -/
theorem named_of_forwards {e : MatchedEndpoint} {httpMethod : String} {uid : Nat}
    (h : Forwards I catalog e httpMethod uid) :
    "company_id" ∉ e.named ∧ ∀ f ∈ e.pathArgs, f.1 ∈ e.named := by
  cases e with
  | ormCall model method =>
    simp [MatchedEndpoint.named, MatchedEndpoint.pathArgs]
  | customEndpointCall subpath =>
    simp [MatchedEndpoint.named, MatchedEndpoint.pathArgs]
  | plain endpoint declared pathArgs => cases h

/-- An application whose methods return their keyword arguments tells those of the two requests
apart. -/
theorem keywords_eq_of_interchangeable {e : MatchedEndpoint} {pattern : String} {s : σ}
    {uid companyId : Nat} {lang : Option String} {params params' : Kw}
    (hfirst : serveCall I e pattern (q.withCompanyHeader c) = .ok ⟨uid, companyId, lang, params⟩)
    (hsecond : serveCall I e pattern (q.withCompanyQuery c) = .ok ⟨uid, companyId, lang, params'⟩)
    (hlookup : ∀ key, key ≠ "company_id" → params.lookup key = params'.lookup key)
    (h : Interchangeable I catalog e pattern q c s) (hself : params.lookup "self" = none)
    (hforwards : Forwards I catalog e q.request.method uid)
    (hids : ∃ records, parseIds I.loads (params.get "ids") = .ok records) :
    Kw.keywords e.named params = Kw.keywords e.named params' := by
  have hanswers := h (echoApplication catalog) catalog_echoApplication "" fun _ => .null
  unfold respond at hanswers
  rw [hfirst, hsecond] at hanswers
  simp only [bind, Except.bind] at hanswers
  rw [callEndpoint_echo (q := q.withCompanyHeader c) ⟨uid, companyId, lang, params⟩ hself hforwards
      hids,
    callEndpoint_echo (q := q.withCompanyQuery c) ⟨uid, companyId, lang, params'⟩
      ((hlookup "self" (by decide)).symm.trans hself) hforwards
      (by rwa [get_eq (hlookup "ids" (by decide))] at hids)] at hanswers
  have hpayload := congrArg (fun answer : Response × σ => answer.1.payload) hanswers
  simpa only [settle, makeJsonResponse, Option.some.injEq, Json.obj.injEq, List.cons.injEq,
    Prod.mk.injEq, true_and, and_true] using hpayload

/-- **Selecting a company.**  Header and parameter are interchangeable, whatever the methods of the
models do, exactly when the request does not reach one or the method is given `company_id` without
the selection. -/
theorem companySelection_iff (I : Installation) (hsite : IgnoresCompany I.site)
    (hships : Ships I.site) (catalog : Catalog) (e : MatchedEndpoint) (pattern : String)
    (q : Incoming) (c : String)
    (hheader : q.request.header "X-Odoo-Company" = none) (s : σ) :
    Interchangeable I catalog e pattern q c s ↔
      (ReachesMethod I catalog e pattern (q.withCompanyHeader c) → Supplied e q c) := by
  rcases serveCall_selections hsite hships hheader (c := c) e pattern with
    ⟨exn, hfirst, hsecond⟩ | ⟨uid, companyId, lang, fields, hfields, hfirst, hsecond⟩
  · -- refused before the endpoint
    refine iff_of_true (fun app _ requestId details => ?_) ?_
    · unfold respond
      rw [hfirst, hsecond]
      rfl
    · rintro ⟨call, hcall, -⟩
      rw [hfirst] at hcall
      cases hcall
  · have hkeywords : Forwards I catalog e q.request.method uid →
        (Kw.keywords e.named ((q.request.query.update fields).update e.pathArgs) =
          Kw.keywords e.named (((HttpRequest.withCompanyArg q.request c).query.update
            fields).update e.pathArgs) ↔ Supplied e q c) := by
      intro hforwards
      obtain ⟨hnamed, hpath⟩ := named_of_forwards hforwards
      rw [keywords_withCompanyArg_iff hnamed hpath]
      unfold Supplied
      rw [hfields]
      exact ⟨fun h fields' hf => by cases hf; exact h, fun h => h fields rfl⟩
    have hlookup : ∀ key, key ≠ "company_id" →
        ((q.request.query.update fields).update e.pathArgs).lookup key =
          (((HttpRequest.withCompanyArg q.request c).query.update fields).update
            e.pathArgs).lookup key := by
      intro key hkey
      rw [Kw.lookup_update, Kw.lookup_update, Kw.lookup_update, Kw.lookup_update,
        lookup_query_withCompanyArg, if_neg hkey]
    constructor
    · rintro h ⟨call, hcall, hself, hforwards, hids⟩
      rw [hfirst] at hcall
      cases hcall
      exact (hkeywords hforwards).mp
        (keywords_eq_of_interchangeable hfirst hsecond hlookup h hself hforwards hids)
    · intro h app happ requestId details
      unfold respond
      rw [hfirst, hsecond]
      congr 1
      exact callEndpoint_congr happ (view_withCompanyHeader q c) hlookup
        (fun hself hforwards hids => (hkeywords hforwards).mpr
          (h ⟨_, hfirst, hself, hforwards, hids⟩)) s

/-! ## A call of a method without parameters -/

/-- User 7 works in companies 1 and 2 and has an API key. -/
def callInstallation : Installation where
  site := sampleSite
  db :=
    { scopedDatabase with
      users := [⟨7, { account "employee" true with companyIds := [1, 2] }⟩]
      profiles := []
      companies := [1, 2] }
  endpoints := []
  irModel := []
  loads _ := .error "Expecting value"

theorem sampleSite_ignoresCompany : IgnoresCompany sampleSite where
  coreAuth _ _ _ _ _ := rfl
  corePreDispatch _ _ _ := rfl

theorem sampleSite_ships : Ships sampleSite := by
  intro model provider h
  change (if model = "ssi_rest_auth_apikey" then some ssiRestAuthApikey else none) = _ at h
  split at h
  · next hmodel =>
    cases h
    rw [hmodel]
    simp [restAuthenticators]
  · cases h

/-- A request with the key and without parameters. -/
def bareRequest (method path : String) : Incoming where
  request := { keyedRequest with method := method, path := path }
  form := []
  formParams := rfl

/-- `def action_archive(self)`. -/
def actionArchive : Method Unit where
  bind
    | [] => .ok ()
    | (key, _) :: _ => .error ("got an unexpected keyword argument '" ++ key ++ "'")
  body _ _ _ s := .ok (.value (.bool true), s)

/-- Partners can be archived. -/
def archiveApplication : Application Unit where
  models model := if model = "res.partner" then some fun _ => .ok actionArchive else none
  repr name := "'" ++ name ++ "'"
  serverAction _ _ _ s := .ok (.value .null, s)
  handler _ _ _ _ s := .ok (makeJsonResponse .null [] 200, s)

/-- A call for a model that is not loaded is answered 404 in both ways. -/
theorem companySelection_unknown :
    Interchangeable callInstallation archiveApplication.catalog (.ormCall "note" "action_archive")
      "/api/v1/orm/<string:model>/call/<string:method>"
      (bareRequest "POST" "/api/v1/orm/note/call/action_archive") "2" () :=
  (companySelection_iff callInstallation sampleSite_ignoresCompany sampleSite_ships
    archiveApplication.catalog _ _ (bareRequest "POST" "/api/v1/orm/note/call/action_archive") "2"
    (by decide) ()).mpr fun ⟨_, _, _, ⟨_, hmodel, _⟩, _⟩ => nomatch hmodel

/-- With the header the call succeeds, with the parameter it is refused: the method takes no
`company_id`. -/
theorem not_interchangeable_call :
    IgnoresCompany callInstallation.site ∧ Ships callInstallation.site ∧
      (bareRequest "POST" "/api/v1/orm/res.partner/call/action_archive").request.header
        "X-Odoo-Company" = none ∧
      ¬ Interchangeable callInstallation archiveApplication.catalog
        (.ormCall "res.partner" "action_archive")
        "/api/v1/orm/<string:model>/call/<string:method>"
        (bareRequest "POST" "/api/v1/orm/res.partner/call/action_archive") "2" () := by
  refine ⟨sampleSite_ignoresCompany, sampleSite_ships, by decide, fun h => ?_⟩
  have hanswers := h archiveApplication rfl "" fun _ => .null
  have hstatus := congrArg (fun answer : Response × Unit => answer.1.statusCode) hanswers
  exact absurd (show (200 : Int) = 422 from hstatus) (by decide)

end SsiRest.MethodCall
