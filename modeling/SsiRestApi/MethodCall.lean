import SsiRestApi.CustomEndpoint.Registry
import SsiRestApi.Lib.Keywords
import SsiRestApi.OrmController

/-!
# Calls of model methods

`orm_call` and the handlers of `custom_endpoint_call`: the parameters that neither the
path nor the endpoint names go to a method of a model as keyword arguments.  `orm_call`
binds them to the signature first and answers 422 where they do not fit;
`run_model_method` calls the method outright, which is a server error there.

    the custom endpoint is the one of the registry, with its states    (customEndpointCall_map)
-/

namespace SsiRest.MethodCall

open Py Tx CustomEndpoint OrmController

/-! ## Ids -/

/-- What `for item in value` goes through. -/
def iterate : Json → Except Exn (List Json)
  | .arr items => .ok items
  | .obj fields => .ok (fields.map fun f => .str f.1)
  | .str s => .ok (s.toList.map fun c => .str (String.ofList [c]))
  | _ => .error (.python "TypeError")

/-- `parse_ids`. -/
def parseIds (loads : String → Except String Json) : Json → Except Exn (List Int)
  | .null => .ok []
  | .str "" => .ok []
  | .int i => .ok [i]
  | .bool b => .ok [if b then 1 else 0]
  | .str s =>
    let stripped := strip s
    if startsWith stripped "[" then do
      let decoded ← parseJsonParam loads (.str stripped) (.arr [])
      let items ← iterate decoded
      items.mapM toInt
    else
      ((splitOn ',' stripped).filter fun item => strip item ≠ "").mapM fun item =>
        toInt (.str item)
  | .arr items => items.mapM toInt
  | _ =>
    .error (RestAuthError "validation_error"
      "ids must be an integer, a comma-separated string, or a list." 422)

/-! ## Methods -/

/-- The environment of a call. -/
structure Caller where
  uid : Nat
  companyId : Nat
  lang : Option String

/-- A method over the states `σ` of the database. -/
structure Method (σ : Type) where
  /-- `inspect.signature(func).bind(records, **kwargs)`, or the message of its `TypeError`. -/
  bind : Kw → Except String Unit
  body : Caller → List Int → Kw → σ → Except Exn (HandlerResult × σ)

variable {σ : Type}

/-- `func(records, **kwargs)`. -/
def Method.call (func : Method σ) (caller : Caller) (records : List Int) (kwargs : Kw) (s : σ) :
    Except Exn (HandlerResult × σ) :=
  match func.bind kwargs with
  | .error _ => .error (.python "TypeError")
  | .ok () => func.body caller records kwargs s

/-- What `get_public_method` raises. -/
inductive LookupFailure where
  | attributeError (message : String)
  | raised (e : Exn)

/-- `get_public_method(target, name)`. -/
abbrev PublicMethods (σ : Type) := Option String → Except LookupFailure (Method σ)

/-- What an endpoint that forwards nothing sees of the request besides its parameters. -/
structure RequestView where
  remoteAddr : Option String
  path : String
  method : String
  /-- Every header but the one that names a company. -/
  header : String → Option String
  /-- The fields and files of a form. -/
  form : Kw

/-- What is installed besides this code. -/
structure Application (σ : Type) where
  /-- `env[model]`. -/
  models : String → Option (PublicMethods σ)
  /-- `repr` of a text. -/
  repr : String → String
  /-- `action.with_context(**context).run()` for the parsed ids. -/
  serverAction : Caller → Row Endpoint → List Int → σ → Except Exn (HandlerResult × σ)
  /-- The bodies of the endpoints that forward nothing. -/
  handler : String → Caller → RequestView → (String → Option Json) → σ → Except Exn (Response × σ)

/-- Which models there are, and what `get_public_method` says of a name of a method. -/
abbrev Catalog := String → Option (Option String → Except LookupFailure Unit)

/-- The model has a public method of this name. -/
def Catalog.Lists (catalog : Catalog) (model : String) (method : Option String) : Prop :=
  ∃ target, catalog model = some target ∧ target method = .ok ()

/-- The models and methods of an application, without what the methods do. -/
def Application.catalog (app : Application σ) : Catalog := fun model =>
  (app.models model).map fun target method => (target method).map fun _ => ()

theorem Application.lists_of_ok {app : Application σ} {model : String} {method : Option String}
    {target : PublicMethods σ} (hmodel : app.models model = some target) {func : Method σ}
    (hfunc : target method = .ok func) : app.catalog.Lists model method := by
  refine ⟨_, congrArg _ hmodel, ?_⟩
  show (target method).map (fun _ => ()) = .ok ()
  rw [hfunc]
  rfl

variable (app : Application σ) (loads : String → Except String Json)

/-- The `{"result": …}` of a call; records are given by their ids. -/
def resultBody (result : HandlerResult) : Json :=
  .obj [("result", match result with
    | .value v => v
    | .records ids => .arr (ids.map fun id => .int id))]

def getPublicMethod (target : PublicMethods σ) (name : Option String) : Except Exn (Method σ) :=
  match target name with
  | .ok func => .ok func
  | .error (.attributeError message) => .error (RestAuthError "missing_record" message 404)
  | .error (.raised e) => .error e

theorem getPublicMethod_ok {target : PublicMethods σ} {name : Option String} {func : Method σ}
    (h : getPublicMethod target name = .ok func) : target name = .ok func := by
  unfold getPublicMethod at h
  split at h
  · next hfunc =>
    cases h
    exact hfunc
  · cases h
  · cases h

/-! ## orm_call -/

/-- `signature.bind(records, **kwargs)`. -/
def checkSignature (func : Method σ) (kwargs : Kw) : Except Exn Unit :=
  (func.bind kwargs).mapError fun message => RestAuthError "validation_error" message 422

/-- `orm_call`. -/
def ormCall (caller : Caller) (model method : String) (ids : Json) (kwargs : Kw) (s : σ) :
    Except Exn (Json × σ) := do
  let target ← resolveModel app.repr app.models model
  let func ← getPublicMethod target (some method)
  let records ← parseIds loads ids
  checkSignature func kwargs
  let (result, s) ← func.call caller records kwargs s
  pure (resultBody result, s)

/-! ## custom_endpoint_call -/

/-- `env[endpoint._get_target_model_name()]`. -/
def targetModel (irModel : List (Row String)) (endpoint : Row Endpoint) :
    Except Exn (PublicMethods σ) :=
  match filledIn (getTargetModelName irModel endpoint.val) with
  | none =>
    .error (RestAuthError "missing_record" "Endpoint's target model no longer exists." 404)
  | some name =>
    match app.models name with
    | some target => .ok target
    | none => .error (.python "KeyError")

/-- `run_model_method`. -/
def runModelMethod (irModel : List (Row String)) (caller : Caller) (endpoint : Row Endpoint)
    (ids : Json) (kwargs : Kw) (s : σ) : Except Exn (HandlerResult × σ) := do
  let target ← targetModel app irModel endpoint
  let func ← getPublicMethod target endpoint.val.methodName
  let records ← parseIds loads ids
  func.call caller records kwargs s

/-- `run_server_action`. -/
def runServerAction (caller : Caller) (endpoint : Row Endpoint) (ids : Json) (s : σ) :
    Except Exn (HandlerResult × σ) := do
  let parsedIds ← parseIds loads ids
  app.serverAction caller endpoint parsedIds s

/-- The handler of an endpoint. -/
def runHandler (irModel : List (Row String)) (caller : Caller) (endpoint : Row Endpoint)
    (ids : Json) (kwargs : Kw) (s : σ) : Except Exn (HandlerResult × σ) :=
  match endpoint.val.handlerType with
  | .modelMethod => runModelMethod app loads irModel caller endpoint ids kwargs s
  | .serverAction => runServerAction app loads caller endpoint ids s

/-- The endpoint a user may call. -/
def allowedEndpoint (profiles : Profiles) (irModel : List (Row String)) (rows : Endpoints) (user : User)
    (subpath httpMethod : String) : Except Exn (Row Endpoint) :=
  if !endpointModel.security.hasAccess user .read then .error (Orm.accessError endpointModel)
  else
    match findEndpoint rows subpath httpMethod with
    | none => .error endpointNotFound
    | some endpoint =>
      if !checkRestAccess profiles irModel endpoint.val user then
        .error (RestAuthError "access_denied" "You are not allowed to perform this action." 403)
      else .ok endpoint

/-- `custom_endpoint_call`. -/
def customEndpointCall (profiles : Profiles) (irModel : List (Row String)) (rows : Endpoints)
    (user : User) (caller : Caller) (subpath httpMethod : String) (ids : Json) (kwargs : Kw)
    (s : σ) : Except Exn (Json × σ) := do
  let endpoint ← allowedEndpoint profiles irModel rows user subpath httpMethod
  let (result, s) ← runHandler app loads irModel caller endpoint ids kwargs s
  pure (resultBody result, s)

/-- The handlers as a call sees them that does not keep the state. -/
def callSite (profiles : Profiles) (irModel : List (Row String)) (caller : Caller) (s : σ) :
    CallSite where
  profiles := profiles
  irModel := irModel
  runModelMethod _ endpoint ids kwargs :=
    (runModelMethod app loads irModel caller endpoint ids kwargs s).map Prod.fst
  runServerAction _ endpoint ids := (runServerAction app loads caller endpoint ids s).map Prod.fst

theorem customEndpointCall_map (profiles : Profiles) (irModel : List (Row String))
    (rows : Endpoints) (user : User) (caller : Caller) (subpath httpMethod : String) (ids : Json)
    (kwargs : Kw) (s : σ) :
    (customEndpointCall app loads profiles irModel rows user caller subpath httpMethod ids kwargs
      s).map Prod.fst =
      CustomEndpoint.customEndpointCall (callSite app loads profiles irModel caller s) rows user
        subpath httpMethod ids kwargs := by
  unfold customEndpointCall allowedEndpoint CustomEndpoint.customEndpointCall
  split
  · rfl
  · cases findEndpoint rows subpath httpMethod with
    | none => rfl
    | some endpoint =>
      unfold invoke callSite runHandler
      dsimp only
      split
      · rfl
      · cases htype : endpoint.val.handlerType with
        | modelMethod =>
          simp only [htype, bind, Except.bind]
          cases runModelMethod app loads irModel caller endpoint ids kwargs s <;> rfl
        | serverAction =>
          simp only [htype, bind, Except.bind]
          cases runServerAction app loads caller endpoint ids s <;> rfl

/-! ## Calls that never reach the method -/

/-- The keyword arguments matter where the method is found and the ids can be read. -/
theorem ormCall_congr {model method : String} {ids : Json} {kwargs kwargs' : Kw}
    (h : app.catalog.Lists model (some method) →
      (∃ records, parseIds loads ids = .ok records) → kwargs = kwargs') (caller : Caller) (s : σ) :
    ormCall app loads caller model method ids kwargs s =
      ormCall app loads caller model method ids kwargs' s := by
  unfold ormCall resolveModel
  cases hmodel : app.models model with
  | none => rfl
  | some target =>
    cases hfunc : getPublicMethod target (some method) with
    | error e => simp only [hfunc, bind, Except.bind]
    | ok func =>
      cases hids : parseIds loads ids with
      | error e => simp only [hfunc, bind, Except.bind]
      | ok records => rw [h (app.lists_of_ok hmodel (getPublicMethod_ok hfunc)) ⟨records, hids⟩]

theorem runModelMethod_congr {irModel : List (Row String)} {endpoint : Row Endpoint} {ids : Json}
    {kwargs kwargs' : Kw}
    (h : (∃ name, filledIn (getTargetModelName irModel endpoint.val) = some name ∧
        app.catalog.Lists name endpoint.val.methodName) →
      (∃ records, parseIds loads ids = .ok records) → kwargs = kwargs') (caller : Caller) (s : σ) :
    runModelMethod app loads irModel caller endpoint ids kwargs s =
      runModelMethod app loads irModel caller endpoint ids kwargs' s := by
  unfold runModelMethod targetModel
  cases hname : filledIn (getTargetModelName irModel endpoint.val) with
  | none => rfl
  | some name =>
    dsimp only
    cases hmodel : app.models name with
    | none => rfl
    | some target =>
      cases hfunc : getPublicMethod target endpoint.val.methodName with
      | error e => simp only [hfunc, bind, Except.bind]
      | ok func =>
        cases hids : parseIds loads ids with
        | error e => simp only [hfunc, bind, Except.bind]
        | ok records =>
          rw [h ⟨name, hname, app.lists_of_ok hmodel (getPublicMethod_ok hfunc)⟩ ⟨records, hids⟩]

theorem customEndpointCall_congr {profiles : Profiles} {irModel : List (Row String)}
    {rows : Endpoints} {user : User} {subpath httpMethod : String} {ids : Json}
    {kwargs kwargs' : Kw}
    (h : ∀ endpoint name,
      allowedEndpoint profiles irModel rows user subpath httpMethod = .ok endpoint →
      endpoint.val.handlerType = .modelMethod →
      filledIn (getTargetModelName irModel endpoint.val) = some name →
      app.catalog.Lists name endpoint.val.methodName →
      (∃ records, parseIds loads ids = .ok records) → kwargs = kwargs') (caller : Caller) (s : σ) :
    customEndpointCall app loads profiles irModel rows user caller subpath httpMethod ids kwargs s =
      customEndpointCall app loads profiles irModel rows user caller subpath httpMethod ids kwargs'
        s := by
  unfold customEndpointCall
  cases hallowed : allowedEndpoint profiles irModel rows user subpath httpMethod with
  | error e => rfl
  | ok endpoint =>
    have hhandler : runHandler app loads irModel caller endpoint ids kwargs s =
        runHandler app loads irModel caller endpoint ids kwargs' s := by
      unfold runHandler
      cases htype : endpoint.val.handlerType with
      | serverAction => rfl
      | modelMethod =>
        exact runModelMethod_congr app loads
          (fun ⟨name, hname, hlists⟩ => h endpoint name hallowed htype hname hlists) caller s
    simp only [hhandler, bind, Except.bind]

end SsiRest.MethodCall
