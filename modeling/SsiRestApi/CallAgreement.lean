import SsiRestApi.CompanyParameter

/-!
# Two ways of calling a method

`POST /orm/<model>/call/<method>` and a custom endpoint for the same method.  Both resolve
the model, look the method up in the whitelist and parse the ids, in this order.  Only
`orm_call` then binds the arguments to the signature, and only `resolve_model` answers for
a model that is not loaded.

    same result, or same error status and code ↔ the model is loaded, and a call that comes
      to the method fits its signature                                   (callsAgree_iff)
-/

namespace SsiRest.MethodCall

open Py Tx CustomEndpoint

/-! ## The two calls -/

/-- The parameters a request sends besides those in its path. -/
def sentParams (q : HttpRequest) : Except Exn Kw := mergeParams q []

/-- A call of a model's method and a call of a custom endpoint for it, that pass all checks as one
user with the same parameters. -/
structure Counterparts (I : Installation) (model method : String) where
  subpath : String
  ormPattern : String
  customPattern : String
  orm : Incoming
  custom : Incoming
  params : Kw
  ormServed : Call
  customServed : Call
  account : Account
  endpoint : Row Endpoint
  sent_orm : sentParams orm.request = .ok params
  sent_custom : sentParams custom.request = .ok params
  unnamed : ∀ key ∈ ["model", "method", "subpath"], params.lookup key = none
  serve_orm : serveCall I (.ormCall model method) ormPattern orm = .ok ormServed
  serve_custom : serveCall I (.customEndpointCall subpath) customPattern custom = .ok customServed
  caller : callerOf ormServed = callerOf customServed
  findAccount_eq : findAccount I.db.users customServed.uid = .ok account
  allowed : allowedEndpoint I.db.profiles I.irModel I.endpoints (account.principal customServed.uid)
    subpath custom.request.method = .ok endpoint
  handlerType : endpoint.val.handlerType = .modelMethod
  targetModel : filledIn (getTargetModelName I.irModel endpoint.val) = some model
  methodName : endpoint.val.methodName = some method

/-- The same result, or errors with the same status and code. -/
def SameOutcome {α : Type} : Except Exn α → Except Exn α → Prop
  | .ok a, .ok b => a = b
  | .error e, .error e' => ∀ requestId requestId' details details',
      (errorResponse requestId details e).statusCode =
          (errorResponse requestId' details' e').statusCode ∧
        (errorResponse requestId details e).errorCode =
          (errorResponse requestId' details' e').errorCode
  | _, _ => False

theorem SameOutcome.refl {α : Type} (outcome : Except Exn α) : SameOutcome outcome outcome := by
  cases outcome with
  | ok a => exact rfl
  | error e =>
    intro requestId requestId' details details'
    cases hresponse : e.response with
    | some response =>
      rw [errorResponse_of_response _ _ hresponse, errorResponse_of_response _ _ hresponse]
      exact ⟨rfl, rfl⟩
    | none =>
      rw [errorResponse_statusCode _ _ hresponse, errorResponse_statusCode _ _ hresponse,
        errorResponse_errorCode _ _ hresponse, errorResponse_errorCode _ _ hresponse]
      exact ⟨rfl, rfl⟩

/-- A protocol error is no server error. -/
theorem not_sameOutcome_python {α : Type} (code description : String) {status : Int}
    (h : status ≠ 500) (type : String) :
    ¬ SameOutcome (α := α) (.error (RestAuthError code description status))
      (.error (.python type)) := by
  intro hsame
  have hstatus := (hsame "" "" .null .null).1
  rw [errorResponse_statusCode _ _ rfl, errorResponse_statusCode _ _ rfl] at hstatus
  exact h hstatus

section

variable {σ : Type} (app : Application σ) (loads : String → Except String Json)

/-- The model is loaded, and arguments that come to the method fit its signature. -/
def CallFits (model method : String) (ids : Json) (kwargs : Kw) : Prop :=
  ∃ target, app.models model = some target ∧
    ∀ func records, getPublicMethod target (some method) = .ok func →
      parseIds loads ids = .ok records → func.bind kwargs = .ok ()

/-! ## One path against the other -/

/-- The paths do the same thing, or a protocol error of the first is a server error of the
second. -/
theorem ormCall_cases (irModel : List (Row String)) (caller : Caller) {endpoint : Row Endpoint}
    {model method : String} (hmodel : filledIn (getTargetModelName irModel endpoint.val) = some model)
    (hmethod : endpoint.val.methodName = some method) (ids : Json) (kwargs : Kw) (s : σ) :
    (CallFits app loads model method ids kwargs ∧
      ormCall app loads caller model method ids kwargs s =
        (runModelMethod app loads irModel caller endpoint ids kwargs s).map fun answer =>
          (resultBody answer.1, answer.2)) ∨
    (¬ CallFits app loads model method ids kwargs ∧ ∃ code description status type,
      status ≠ 500 ∧
      ormCall app loads caller model method ids kwargs s =
        .error (RestAuthError code description status) ∧
      runModelMethod app loads irModel caller endpoint ids kwargs s = .error (.python type)) := by
  unfold ormCall runModelMethod OrmController.resolveModel targetModel
  rw [hmodel, hmethod]
  dsimp only
  cases hmodels : app.models model with
  | none =>
    refine Or.inr ⟨?_, _, _, _, _, by decide, rfl, rfl⟩
    rintro ⟨target, htarget, -⟩
    rw [hmodels] at htarget
    cases htarget
  | some target =>
    cases hfunc : getPublicMethod target (some method) with
    | error e =>
      refine Or.inl ⟨⟨target, hmodels, fun func records hok => ?_⟩, ?_⟩
      · rw [hfunc] at hok
        cases hok
      · simp only [hfunc, bind, Except.bind]
        rfl
    | ok func =>
      cases hids : parseIds loads ids with
      | error e =>
        refine Or.inl ⟨⟨target, hmodels, fun func records _ hok => ?_⟩, ?_⟩
        · rw [hids] at hok
          cases hok
        · simp only [hfunc, bind, Except.bind]
          rfl
      | ok records =>
        simp only [hfunc, bind, Except.bind, checkSignature, Method.call]
        cases hbind : func.bind kwargs with
        | error message =>
          refine Or.inr ⟨?_, _, _, _, _, by decide, rfl, rfl⟩
          rintro ⟨target', htarget', hfits⟩
          obtain rfl := Option.some.inj (hmodels.symm.trans htarget')
          have hok := hfits func records hfunc hids
          rw [hbind] at hok
          cases hok
        | ok _ =>
          refine Or.inl ⟨⟨target, hmodels, fun func' _ hok _ => ?_⟩, ?_⟩
          · obtain rfl := Except.ok.inj (hfunc.symm.trans hok)
            exact hbind
          · dsimp only [Except.mapError]
            cases func.body caller records kwargs s <;> rfl

end

/-! ## From the requests -/

theorem mergeParams_eq_sent (q : HttpRequest) (pathArgs : Kw) :
    mergeParams q pathArgs = (sentParams q).map fun params => params.update pathArgs := by
  unfold sentParams mergeParams
  split
  · rw [Kw.update_nil]
    rfl
  · cases jsonFields q with
    | error e => rfl
    | ok fields =>
      simp only [bind, Except.bind, pure, Except.pure, Except.map, Kw.update_nil]

theorem params_of_serveCall {I : Installation} {e : MatchedEndpoint} {pattern : String}
    {q : Incoming} {call : Call} {params : Kw} (h : serveCall I e pattern q = .ok call)
    (hsent : sentParams q.request = .ok params) : call.params = params.update e.pathArgs := by
  have hparams := mergeParams_of_serve h
  rw [mergeParams_eq_sent, hsent] at hparams
  exact (Except.ok.inj hparams).symm

/-- What the path does not name is looked up in what is sent. -/
theorem lookup_of_serveCall {I : Installation} {e : MatchedEndpoint} {pattern : String}
    {q : Incoming} {call : Call} {params : Kw} (h : serveCall I e pattern q = .ok call)
    (hsent : sentParams q.request = .ok params) {key : String}
    (hkey : key ∉ e.pathArgs.map Prod.fst) : call.params.lookup key = params.lookup key := by
  have hnone : e.pathArgs.lookup key = none := by
    rw [List.lookup_eq_none_iff]
    rintro f hf
    refine bne_iff_ne.mpr ?_
    rintro rfl
    exact hkey (List.mem_map_of_mem hf)
  rw [params_of_serveCall h hsent, Kw.lookup_update, hnone, Option.none_or]

variable {I : Installation} {σ : Type} {model method : String}

namespace Counterparts

variable (c : Counterparts I model method)

/-- The keyword arguments of the method. -/
def kwargs : Kw := Kw.keywords ["ids"] c.params

theorem lookup_ormServed {key : String} (h : key ∉ ["model", "method"]) :
    c.ormServed.params.lookup key = c.params.lookup key :=
  lookup_of_serveCall c.serve_orm c.sent_orm h

theorem lookup_customServed {key : String} (h : key ∉ ["subpath"]) :
    c.customServed.params.lookup key = c.params.lookup key :=
  lookup_of_serveCall c.serve_custom c.sent_custom h

theorem keywords_ormServed :
    Kw.keywords (MatchedEndpoint.ormCall model method).named c.ormServed.params = c.kwargs := by
  rw [params_of_serveCall c.serve_orm c.sent_orm, Kw.keywords_update_of_named]
  · rw [MatchedEndpoint.named, Kw.keywords_cons_of_lookup_none (c.unnamed "model" (by decide)),
      Kw.keywords_cons_of_lookup_none (c.unnamed "method" (by decide))]
    rfl
  · simp [MatchedEndpoint.pathArgs, MatchedEndpoint.named]

theorem keywords_customServed :
    Kw.keywords (MatchedEndpoint.customEndpointCall c.subpath).named c.customServed.params =
      c.kwargs := by
  rw [params_of_serveCall c.serve_custom c.sent_custom, Kw.keywords_update_of_named]
  · rw [MatchedEndpoint.named, Kw.keywords_cons_of_lookup_none (c.unnamed "subpath" (by decide))]
    rfl
  · simp [MatchedEndpoint.pathArgs, MatchedEndpoint.named]

theorem callEndpoint_orm (app : Application σ) (s : σ) :
    callEndpoint I app (.ormCall model method) c.orm c.ormServed s =
      if (c.params.lookup "self").isSome then .error (.python "TypeError")
      else (ormCall app I.loads (callerOf c.customServed) model method (c.params.get "ids") c.kwargs
        s).map fun answer => (makeJsonResponse answer.1 [] 200, answer.2) := by
  rw [callEndpoint, get_eq (c.lookup_ormServed (by decide)), c.keywords_ormServed, c.caller]
  have hlookup : c.ormServed.params.lookup "self" = c.params.lookup "self" :=
    c.lookup_ormServed (by decide)
  cases hself : c.params.lookup "self" with
  | some v =>
    rw [bindEndpoint_of_some (hlookup.trans hself)]
    rfl
  | none =>
    rw [bindEndpoint_of_none (hlookup.trans hself)]
    generalize ormCall app I.loads (callerOf c.customServed) model method (c.params.get "ids")
      c.kwargs s = outcome
    cases outcome <;> rfl

theorem callEndpoint_custom (app : Application σ) (s : σ) :
    callEndpoint I app (.customEndpointCall c.subpath) c.custom c.customServed s =
      if (c.params.lookup "self").isSome then .error (.python "TypeError")
      else (runModelMethod app I.loads I.irModel (callerOf c.customServed) c.endpoint
        (c.params.get "ids") c.kwargs s).map fun answer =>
          (makeJsonResponse (resultBody answer.1) [] 200, answer.2) := by
  rw [callEndpoint, get_eq (c.lookup_customServed (by decide)), c.keywords_customServed,
    c.findAccount_eq]
  have hlookup : c.customServed.params.lookup "self" = c.params.lookup "self" :=
    c.lookup_customServed (by decide)
  cases hself : c.params.lookup "self" with
  | some v =>
    rw [bindEndpoint_of_some (hlookup.trans hself)]
    rfl
  | none =>
    rw [bindEndpoint_of_none (hlookup.trans hself)]
    simp only [bind, Except.bind, customEndpointCall, c.allowed, runHandler, c.handlerType]
    cases runModelMethod app I.loads I.irModel (callerOf c.customServed) c.endpoint
      (c.params.get "ids") c.kwargs s <;> rfl

/-- A parameter passes for the controller, or the call fits. -/
def Fits (app : Application σ) : Prop :=
  (c.params.lookup "self").isSome ∨ CallFits app I.loads model method (c.params.get "ids") c.kwargs

end Counterparts

/-- **Calling a method in two ways.**  The two requests have the same outcome exactly when the model
is loaded and the arguments of a call that comes to the method fit its signature. -/
theorem callsAgree_iff (c : Counterparts I model method) (app : Application σ) (s : σ) :
    SameOutcome (callEndpoint I app (.ormCall model method) c.orm c.ormServed s)
      (callEndpoint I app (.customEndpointCall c.subpath) c.custom c.customServed s) ↔
      c.Fits app := by
  rw [c.callEndpoint_orm, c.callEndpoint_custom]
  unfold Counterparts.Fits
  split
  · next hself => exact iff_of_true (SameOutcome.refl _) (Or.inl hself)
  · next hself =>
    rcases ormCall_cases app I.loads I.irModel (callerOf c.customServed) c.targetModel c.methodName
      (c.params.get "ids") c.kwargs s with ⟨hfits, heq⟩ | ⟨hnot, _, _, _, type, hstatus, horm, hcustom⟩
    · refine iff_of_true ?_ (Or.inr hfits)
      rw [heq]
      cases runModelMethod app I.loads I.irModel (callerOf c.customServed) c.endpoint
        (c.params.get "ids") c.kwargs s with
      | ok answer => exact rfl
      | error e => exact SameOutcome.refl (.error e)
    · refine iff_of_false ?_ fun hfits => hfits.elim (fun h => hself h) hnot
      rw [horm, hcustom]
      exact not_sameOutcome_python _ _ hstatus type

/-- `callInstallation` with a custom endpoint that archives partners. -/
def archiveInstallation : Installation :=
  { callInstallation with
    endpoints :=
      [⟨3, ⟨true, "partners/archive", .POST, .modelMethod, some 1, some "action_archive", none, [],
        false⟩⟩]
    irModel := [⟨1, "res.partner"⟩] }

/-- A request with the key and a reason in its query string. -/
def reasonedRequest (path : String) : Incoming where
  request :=
    { keyedRequest with
      method := "POST"
      path := path
      args := [("reason", "duplicate")]
      formParams := [("reason", .str "duplicate")] }
  form := []
  formParams := rfl

/-- Both ways of archiving partners, with a reason. -/
def archiveCalls : Counterparts archiveInstallation "res.partner" "action_archive" where
  subpath := "partners/archive"
  ormPattern := "/api/v1/orm/<string:model>/call/<string:method>"
  customPattern := "/api/v1/x/<path:subpath>"
  orm := reasonedRequest "/api/v1/orm/res.partner/call/action_archive"
  custom := reasonedRequest "/api/v1/x/partners/archive"
  params := [("reason", .str "duplicate")]
  ormServed := ⟨7, 1, none, [("reason", .str "duplicate"), ("model", .str "res.partner"),
    ("method", .str "action_archive")]⟩
  customServed := ⟨7, 1, none, [("reason", .str "duplicate"), ("subpath", .str "partners/archive")]⟩
  account := { account "employee" true with companyIds := [1, 2] }
  endpoint := ⟨3, ⟨true, "partners/archive", .POST, .modelMethod, some 1, some "action_archive", none,
    [], false⟩⟩
  sent_orm := rfl
  sent_custom := rfl
  unnamed := by simp
  serve_orm := rfl
  serve_custom := rfl
  caller := rfl
  findAccount_eq := rfl
  allowed := rfl
  handlerType := rfl
  targetModel := rfl
  methodName := rfl

/-- `def action_archive(self, **kwargs)`. -/
def actionArchiveWithReason : Method Unit where
  bind _ := .ok ()
  body _ _ _ s := .ok (.value (.bool true), s)

def reasonApplication : Application Unit :=
  { archiveApplication with models := fun _ => some fun _ => .ok actionArchiveWithReason }

/-- A method that takes the reason can be called in both ways. -/
theorem callsAgree_reason :
    SameOutcome
      (callEndpoint archiveInstallation reasonApplication
        (.ormCall "res.partner" "action_archive") archiveCalls.orm archiveCalls.ormServed ())
      (callEndpoint archiveInstallation reasonApplication
        (.customEndpointCall archiveCalls.subpath) archiveCalls.custom archiveCalls.customServed ()) :=
  (callsAgree_iff archiveCalls reasonApplication ()).mpr <| Or.inr ⟨_, rfl, fun func records hfunc _ => by
    obtain rfl := Except.ok.inj hfunc
    rfl⟩

/-- The method takes no reason: a 422 in one way, a 500 in the other. -/
theorem not_sameOutcome_archive :
    ¬ SameOutcome
      (callEndpoint archiveInstallation archiveApplication
        (.ormCall "res.partner" "action_archive") archiveCalls.orm archiveCalls.ormServed ())
      (callEndpoint archiveInstallation archiveApplication
        (.customEndpointCall archiveCalls.subpath) archiveCalls.custom archiveCalls.customServed ()) :=
  have hstatus : (422 : Int) ≠ 500 := by decide
  not_sameOutcome_python "validation_error" "got an unexpected keyword argument 'reason'" hstatus
    "TypeError"

end SsiRest.MethodCall
