import SsiRestApi.Envelope
import SsiRestApi.Providers

/-!
# From a request to its endpoint

What runs before the endpoint of an `ssi_rest` route: the scheme registry picks one
provider and its credential (`_auth_method_ssi_rest`), or a method of the core
identifies the user; the dispatcher checks the user's access profiles
(`pre_dispatch`), the company and language are resolved and the parameters merged
(`dispatch`).

    serve returns ↔ every one of these steps passed              (serve_ok_iff)
-/

namespace SsiRest

open Py Tx

structure HttpRequest where
  remoteAddr : Option String
  path : String
  method : String
  headers : List (String × String)
  /-- The query string. -/
  args : List (String × String)
  mimetype : String
  /-- `get_http_params()`. -/
  formParams : Kw
  contentLength : Nat
  /-- `get_json_data()`, or the message of its `ValueError`. -/
  jsonData : Except String Json

/-- `httprequest.headers.get(name)`. -/
def HttpRequest.header (q : HttpRequest) (name : String) : Option String :=
  (q.headers.find? fun h => lower h.1 == lower name).map (·.2)

/-- The `auth` of a route: this module's own, or one of the core's methods. -/
inductive RouteAuth where
  | ssiRest
  | core (method : String)
  deriving DecidableEq

/-- The routing of a matched rule. -/
structure Route where
  /-- The pattern of the rule. -/
  rule : String
  auth : RouteAuth
  schemes : List String
  model : Option String
  operation : Option String

/-- A `mixin.rest_authenticator`; a credential says which provider verifies it. -/
structure Provider where
  extract : HttpRequest → Except Exn (Option Presented)
  challenge : String

/-- `ssi_rest_auth_apikey`: the key of the `X-Api-Key` header. -/
def ssiRestAuthApikey : Provider where
  extract q :=
    match q.header "X-Api-Key" with
    | none => .ok none
    | some rawKey => .ok (if strip rawKey = "" then none else some (.apikey (strip rawKey)))
  challenge := "ApiKey realm=\"ssi_rest\""

structure Site where
  services : Services
  /-- `env[provider_model]`. -/
  registry : String → Option Provider
  /-- The core's auth methods: the user they settle on. -/
  coreAuth : String → Database → HttpRequest → Except Exn Nat
  /-- `Dispatcher.pre_dispatch` of the core. -/
  corePreDispatch : HttpRequest → Except Exn Unit

theorem bind_ok_iff {ε α β : Type} {x : Except ε α} {f : α → Except ε β} {b : β} :
    (x >>= f) = .ok b ↔ ∃ a, x = .ok a ∧ f a = .ok b := by
  cases x with
  | error e => exact ⟨fun h => (by cases h), fun ⟨_, ha, _⟩ => (by cases ha)⟩
  | ok a => exact ⟨fun h => ⟨a, rfl, h⟩, fun ⟨_, ha, h⟩ => (by cases ha; exact h)⟩

/-! ## Authentication -/

def internalServerError : Exn := .httpException .internalServerError none

/-- `except RestAuthError: raise`, `except Exception: raise InternalServerError()`. -/
def onlyRestAuthError {α : Type} : Except Exn α → Except Exn α
  | .error (.restAuthError errorCode description status headers) =>
    .error (.restAuthError errorCode description status headers)
  | .error _ => .error internalServerError
  | .ok a => .ok a

/-- `_get_active_schemes`: by sequence, then id. -/
def getActiveSchemes (schemes : List (Row Scheme)) : List (String × String) :=
  ((schemes.filter fun s => s.val.active).insertionSort fun s s' =>
    s.val.sequence < s'.val.sequence ∨ s.val.sequence = s'.val.sequence ∧ s.id ≤ s'.id).map
      fun s => (s.val.code, s.val.providerModel)

/-- The providers of the candidate schemes that find a credential. -/
def extractAll (registry : String → Option Provider) (q : HttpRequest) :
    List (String × String) → Except Exn (List Presented)
  | [] => .ok []
  | (_, providerModel) :: schemes =>
    match registry providerModel with
    | none => .error (.python "KeyError")
    | some provider => do
      let credential ← onlyRestAuthError (provider.extract q)
      let extracted ← extractAll registry q schemes
      pure (credential.toList ++ extracted)

/-- `_ssi_rest_challenge_headers`. -/
def challengeHeaders (registry : String → Option Provider) (schemes : List (String × String)) :
    List (String × String) :=
  let challenges := (schemes.filterMap fun s => (registry s.2).map (·.challenge)).filter (· ≠ "")
  if challenges.isEmpty then [] else [("WWW-Authenticate", join ", " challenges)]

/-- The active schemes, of those the route accepts when it names any. -/
def candidateSchemes (db : Database) (route : Route) : List (String × String) :=
  let schemes := getActiveSchemes db.schemes
  if route.schemes.isEmpty then schemes
  else schemes.filter fun s => route.schemes.contains s.1

/-- `_auth_method_ssi_rest`. -/
def authMethodSsiRest (site : Site) (db : Database) (route : Route) (q : HttpRequest) :
    Except Exn RestAuthResult := do
  let schemes := candidateSchemes db route
  let extracted ← extractAll site.registry q schemes
  match extracted with
  | [] =>
    .error (.restAuthError "authentication_required"
      "Authentication is required to access this resource." 401
      (challengeHeaders site.registry schemes))
  | [credential] => onlyRestAuthError (restAuthVerify site.services db credential)
  | _ =>
    .error (RestAuthError "multiple_credentials"
      ("More than one authentication scheme provided credentials " ++ "for this request.") 400)

/-- `_authenticate_explicit`: exceptions other than these become a bare `AccessDenied`. -/
def authenticate (site : Site) (db : Database) (route : Route) (q : HttpRequest) :
    Except Exn RestAuthResult :=
  match authMethodSsiRest site db route q with
  | .error (.python _) => .error (.userError .accessDenied 403 "Access Denied")
  | .error (.userError cls status message) =>
    if cls = .accessDenied then .error (.userError cls status message)
    else .error (.userError .accessDenied 403 "Access Denied")
  | result => result

/-- Whom a request runs as, with `request.rest_auth` where the method sets it. -/
structure Identity where
  uid : Nat
  restAuth : Option RestAuthResult
  deriving DecidableEq

/-- `_authenticate(endpoint)`. -/
def identify (site : Site) (db : Database) (route : Route) (q : HttpRequest) :
    Except Exn Identity :=
  match route.auth with
  | .ssiRest => (authenticate site db route q).map fun result => ⟨result.uid, some result⟩
  | .core method => (site.coreAuth method db q).map fun uid => ⟨uid, none⟩

/-! ## Before the endpoint -/

def Route.describe (route : Route) (q : HttpRequest) : RequestDescription :=
  ⟨q.path, q.method, route.model, route.operation⟩

/-- The record of the authenticated user. -/
def findAccount (users : Accounts) (uid : Nat) : Except Exn Account :=
  match users.find? fun u => u.id == uid with
  | some u => .ok u.val
  | none => .error (.userError .missingError 404 "res.users")

def Account.principal (a : Account) (uid : Nat) : User := ⟨uid, a.allGroups⟩

/-- `_enforce_access_profile`. -/
def enforceAccessProfile (db : Database) (uid : Nat) (d : RequestDescription) :
    Except Exn Account :=
  match findAccount db.users uid with
  | .error e => .error e
  | .ok user =>
    if checkRequestAccess db.profiles (user.principal uid) d then .ok user
    else .error (RestAuthError "access_denied" "You are not allowed to perform this action." 403)

/-- `_ssi_rest_resolve_company`. -/
def resolveCompany (db : Database) (user : Account) (q : HttpRequest) : Except Exn Nat :=
  match (q.header "X-Odoo-Company").or (q.args.lookup "company_id") with
  | none => .ok user.companyId
  | some rawCompany =>
    match parseInt rawCompany with
    | none =>
      .error (RestAuthError "validation_error"
        "X-Odoo-Company must be an integer company id." 422)
    | some companyId =>
      match db.companies.find? fun (id : Nat) => (id : Int) == companyId with
      | none =>
        .error (RestAuthError "validation_error"
          "X-Odoo-Company does not reference an existing company." 422)
      | some id =>
        if user.companyIds.contains id then .ok id
        else
          .error (RestAuthError "access_denied"
            "You are not allowed to access this company." 403)

/-- `_ssi_rest_resolve_lang`: the language it sets, if any. -/
def resolveLang (db : Database) (q : HttpRequest) : Option String :=
  match q.header "Accept-Language" with
  | none => none
  | some value =>
    let firstTag := strip (partition ';' (partition ',' value).1).1
    if firstTag = "" then none
    else
      let code := replaceChar '-' '_' firstTag
      if db.langs.contains code then some code else none

/-- The mimetypes of forms. -/
def formMimetypes : List String := ["multipart/form-data", "application/x-www-form-urlencoded"]

/-- `self.jsonrequest or {}`: a body that is no object cannot be unpacked. -/
def jsonFields (q : HttpRequest) : Except Exn Kw :=
  if q.contentLength = 0 then .ok []
  else match q.jsonData with
    | .error _ => .error (.httpException .badRequest none)
    | .ok jsonrequest =>
      if !jsonrequest.truthy then .ok []
      else match jsonrequest with
        | .obj fields => .ok fields
        | _ => .error (.python "TypeError")

/-- The parameters `dispatch` calls the endpoint with: path parameters win over the body, the
body over the query string. -/
def mergeParams (q : HttpRequest) (pathArgs : Kw) : Except Exn Kw :=
  if formMimetypes.contains q.mimetype then .ok (q.formParams.update pathArgs)
  else do
    let fields ← jsonFields q
    let query : Kw := q.args.map fun a => (a.1, .str a.2)
    pure ((query.update fields).update pathArgs)

/-- `endpoint(**params)` binds its arguments: a parameter may not pass for the controller. -/
def bindEndpoint (params : Kw) : Except Exn Unit :=
  if (params.lookup "self").isSome then .error (.python "TypeError") else .ok ()

theorem bindEndpoint_of_some {params : Kw} {v : Json} (h : params.lookup "self" = some v) :
    bindEndpoint params = .error (.python "TypeError") := by
  unfold bindEndpoint
  rw [h]
  rfl

theorem bindEndpoint_of_none {params : Kw} (h : params.lookup "self" = none) :
    bindEndpoint params = .ok () := by
  unfold bindEndpoint
  rw [h]
  rfl

/-- An endpoint call: as whom, in which company and language, with what. -/
structure Call where
  uid : Nat
  companyId : Nat
  lang : Option String
  params : Kw

/-- Everything up to the call of the endpoint. -/
def serve (site : Site) (db : Database) (route : Route) (pathArgs : Kw) (q : HttpRequest) :
    Except Exn Call := do
  let identity ← identify site db route q
  site.corePreDispatch q
  let user ← enforceAccessProfile db identity.uid (route.describe q)
  let companyId ← resolveCompany db user q
  let params ← mergeParams q pathArgs
  pure ⟨identity.uid, companyId, resolveLang db q, params⟩

/-! ## What reaches the endpoint -/

theorem enforceAccessProfile_ok_iff {db : Database} {uid : Nat} {d : RequestDescription}
    {user : Account} :
    enforceAccessProfile db uid d = .ok user ↔ findAccount db.users uid = .ok user ∧
      checkRequestAccess db.profiles (user.principal uid) d = true := by
  unfold enforceAccessProfile
  split
  · next e he => simp [he]
  · next user' he =>
    rw [he]
    constructor
    · intro h
      split at h
      · next hc =>
        cases h
        exact ⟨rfl, hc⟩
      · cases h
    · rintro ⟨hu, hc⟩
      cases hu
      exact if_pos hc

theorem serve_ok_iff {site : Site} {db : Database} {route : Route} {pathArgs : Kw}
    {q : HttpRequest} {call : Call} :
    serve site db route pathArgs q = .ok call ↔
      ∃ identity user companyId params, identify site db route q = .ok identity ∧
        site.corePreDispatch q = .ok () ∧
        enforceAccessProfile db identity.uid (route.describe q) = .ok user ∧
        resolveCompany db user q = .ok companyId ∧ mergeParams q pathArgs = .ok params ∧
        call = ⟨identity.uid, companyId, resolveLang db q, params⟩ := by
  unfold serve
  simp only [bind_ok_iff]
  constructor
  · rintro ⟨identity, hid, _, hcore, user, haccess, companyId, hcompany, params, hparams, hcall⟩
    exact ⟨identity, user, companyId, params, hid, hcore, haccess, hcompany, hparams,
      (Except.ok.inj hcall).symm⟩
  · rintro ⟨identity, user, companyId, params, hid, hcore, haccess, hcompany, hparams, rfl⟩
    exact ⟨identity, hid, (), hcore, user, haccess, companyId, hcompany, params, hparams, rfl⟩

/-- Two requests that every step ahead of the parameters takes alike are refused alike, or call the
endpoint in one environment, each with its own parameters. -/
theorem serve_alike {site : Site} {db : Database} {route : Route} {q q' : HttpRequest}
    (hid : identify site db route q = identify site db route q')
    (hcore : site.corePreDispatch q = site.corePreDispatch q')
    (hdescribe : route.describe q = route.describe q')
    (hcompany : ∀ user, resolveCompany db user q = resolveCompany db user q')
    (hlang : resolveLang db q = resolveLang db q') (pathArgs : Kw) :
    (∃ e, serve site db route pathArgs q = .error e ∧ serve site db route pathArgs q' = .error e) ∨
    ∃ uid companyId lang,
      serve site db route pathArgs q =
        (mergeParams q pathArgs).map (fun params => ⟨uid, companyId, lang, params⟩) ∧
      serve site db route pathArgs q' =
        (mergeParams q' pathArgs).map fun params => ⟨uid, companyId, lang, params⟩ := by
  unfold serve
  rw [hid, hcore, hdescribe, hlang]
  simp only [hcompany, bind, Except.bind]
  cases identify site db route q' with
  | error e => exact Or.inl ⟨e, rfl, rfl⟩
  | ok identity =>
  dsimp only
  cases site.corePreDispatch q' with
  | error e => exact Or.inl ⟨e, rfl, rfl⟩
  | ok _ =>
  dsimp only
  cases enforceAccessProfile db identity.uid (route.describe q') with
  | error e => exact Or.inl ⟨e, rfl, rfl⟩
  | ok user =>
  dsimp only
  cases resolveCompany db user q' with
  | error e => exact Or.inl ⟨e, rfl, rfl⟩
  | ok companyId =>
    refine Or.inr ⟨identity.uid, companyId, resolveLang db q', ?_, ?_⟩
    · cases mergeParams q pathArgs <;> rfl
    · cases mergeParams q' pathArgs <;> rfl

/-- An endpoint is called with the merged parameters. -/
theorem mergeParams_of_serve {site : Site} {db : Database} {route : Route} {pathArgs : Kw}
    {q : HttpRequest} {call : Call} (h : serve site db route pathArgs q = .ok call) :
    mergeParams q pathArgs = .ok call.params := by
  obtain ⟨_, _, _, params, -, -, -, -, hparams, rfl⟩ := serve_ok_iff.mp h
  exact hparams

theorem onlyRestAuthError_ok_iff {α : Type} {x : Except Exn α} {a : α} :
    onlyRestAuthError x = .ok a ↔ x = .ok a := by
  cases x with
  | ok b => exact Iff.rfl
  | error e => cases e <;> exact iff_of_false (fun h => by cases h) (fun h => by cases h)

/-- The request carries one credential that a scheme of the route understands. -/
def Presents (site : Site) (db : Database) (route : Route) (q : HttpRequest) (c : Presented) :
    Prop :=
  route.auth = .ssiRest ∧ extractAll site.registry q (candidateSchemes db route) = .ok [c]

/-- The method succeeds with what the one credential of the request verifies to. -/
theorem authMethodSsiRest_ok_iff {site : Site} {db : Database} {route : Route} {q : HttpRequest}
    {result : RestAuthResult} :
    authMethodSsiRest site db route q = .ok result ↔
      ∃ c, extractAll site.registry q (candidateSchemes db route) = .ok [c] ∧
        restAuthVerify site.services db c = .ok result := by
  unfold authMethodSsiRest
  rw [bind_ok_iff]
  constructor
  · rintro ⟨extracted, hextracted, hverify⟩
    split at hverify
    · cases hverify
    · exact ⟨_, hextracted, onlyRestAuthError_ok_iff.mp hverify⟩
    · cases hverify
  · rintro ⟨c, hextracted, hverify⟩
    exact ⟨[c], hextracted, onlyRestAuthError_ok_iff.mpr hverify⟩

/-- Whoever is authenticated, the one credential of the request was verified. -/
theorem authenticate_ok_iff {site : Site} {db : Database} {route : Route} {q : HttpRequest}
    {result : RestAuthResult} :
    authenticate site db route q = .ok result ↔
      ∃ c, extractAll site.registry q (candidateSchemes db route) = .ok [c] ∧
        restAuthVerify site.services db c = .ok result := by
  rw [← authMethodSsiRest_ok_iff]
  unfold authenticate
  split
  · next he => simp [he]
  · next he => split <;> simp [he]
  · exact Iff.rfl

/-- A request has a result of a provider exactly when it presents a credential the provider
verifies. -/
theorem identify_restAuth_iff {site : Site} {db : Database} {route : Route} {q : HttpRequest}
    {uid : Nat} {result : RestAuthResult} :
    identify site db route q = .ok ⟨uid, some result⟩ ↔ uid = result.uid ∧
      ∃ c, Presents site db route q c ∧ restAuthVerify site.services db c = .ok result := by
  unfold identify Presents
  split
  · next hroute =>
    have hmap : (authenticate site db route q).map
        (fun result => (⟨result.uid, some result⟩ : Identity)) = .ok ⟨uid, some result⟩ ↔
          uid = result.uid ∧ authenticate site db route q = .ok result := by
      cases authenticate site db route q with
      | error e => exact iff_of_false (fun h => by cases h) (fun h => by cases h.2)
      | ok result' =>
        constructor
        · intro h
          cases h
          exact ⟨rfl, rfl⟩
        · rintro ⟨rfl, h⟩
          cases h
          rfl
    rw [hmap, authenticate_ok_iff]
    simp [hroute]
  · next method hroute =>
    cases site.coreAuth method db q with
    | error e => exact iff_of_false (fun h => by cases h) (by simp [hroute])
    | ok uid' => exact iff_of_false (fun h => by cases h) (by simp [hroute])

end SsiRest
