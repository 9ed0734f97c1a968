import SsiRestApi.EndpointCall
import SsiRestApi.Lib.Machine
import SsiRestApi.RecordEndpoints

/-!
# Requests as calls of the ORM

Users of the endpoints of records and of `orm_call`, beside users who call the ORM
themselves: the endpoints act as the user a request is authenticated as, never under
`sudo()`, and ask the ORM for one operation each.  The request log and the date of a key's last
use are written in transactions of their own and are no part of a state.

    what a run of requests leaves in the database, calls of the ORM leave that users made who
      passed the access profiles                                        (runs_are_ormCalls)
-/

namespace SsiRest.RecordEndpoints

open Py MethodCall

/-! ## Requests -/

inductive RecordEndpoint where
  | ormRead (model : String)
  | ormCreate (model : String)
  | ormWrite (model : String)
  | ormUnlink (model : String)
  | ormCall (model method : String)
  | binaryUpload (model : String) (resId : Nat)
  | binaryDownload (model : String) (resId : Nat)

namespace RecordEndpoint

def model : RecordEndpoint → String
  | ormRead model | ormCreate model | ormWrite model | ormUnlink model | ormCall model _ => model
  | binaryUpload model _ | binaryDownload model _ => model

def restRoute : RecordEndpoint → RestRoute
  | ormRead _ => Routes.ormRead
  | ormCreate _ => Routes.ormCreate
  | ormWrite _ => Routes.ormWrite
  | ormUnlink _ => Routes.ormUnlink
  | ormCall _ _ => Routes.ormCall
  | binaryUpload _ _ => Routes.binaryUpload
  | binaryDownload _ _ => Routes.binaryDownload

def pathArgs : RecordEndpoint → Kw
  | ormRead model | ormCreate model | ormWrite model | ormUnlink model => [("model", .str model)]
  | ormCall model method => [("model", .str model), ("method", .str method)]
  | binaryUpload model resId | binaryDownload model resId =>
    [("model", .str model), ("res_id", .int resId)]

end RecordEndpoint

/-- A request under a pattern of its endpoint's route, with the file `file` of its form. -/
structure Visit where
  endpoint : RecordEndpoint
  pattern : String
  request : HttpRequest
  file : Option (List UInt8)

def Visit.route (v : Visit) : Route := v.endpoint.restRoute.route v.pattern

inductive Answer where
  | json (response : Response)
  | stream (stream : Stream) (asAttachment : Bool)

/-- The code over the states of the database. -/
structure Server (σ : Type) where
  site : Site
  /-- The users, schemes, access profiles and companies of a state. -/
  database : σ → Database
  orm : Orm σ
  app : Application σ
  /-- `json.loads`, or the message of its `ValueError`. -/
  loads : String → Except String Json

namespace Server

variable {σ : Type} (S : Server σ)

/-- The call of the endpoint, if it comes to that. -/
def call (s : σ) (v : Visit) : Except Exn Call := do
  let call ← serve S.site (S.database s) v.route v.endpoint.pathArgs v.request
  bindEndpoint call.params
  pure call

/-- `endpoint(**params)`. -/
def runEndpoint (caller : Caller) (file : Option (List UInt8)) (params : Kw) (s : σ) :
    RecordEndpoint → Except Exn (Answer × σ)
  | .ormRead model => do
    let body ← ormRead S.orm S.loads caller model (params.get "ids") params s
    pure (.json (makeJsonResponse body [] 200), s)
  | .ormCreate model => do
    let (body, s) ←
      ormCreate S.orm caller model (params.get "vals") (params.get "vals_list") params s
    pure (.json (makeJsonResponse body [] 201), s)
  | .ormWrite model => do
    let (body, s) ←
      ormWrite S.orm S.loads caller model (params.get "ids") (params.get "vals") params s
    pure (.json (makeJsonResponse body [] 200), s)
  | .ormUnlink model => do
    let s ← ormUnlink S.orm S.loads caller model (params.get "ids") s
    pure (.json (makeJsonResponse .null [] 204), s)
  | .ormCall model method => do
    let (body, s) ← ormCall S.app S.loads caller model method (params.get "ids")
      (Kw.keywords ["model", "method", "ids"] params) s
    pure (.json (makeJsonResponse body [] 200), s)
  | .binaryUpload model resId => do
    let (body, s) ← binaryUpload S.orm caller model resId (params.get "field") file s
    pure (.json (makeJsonResponse body [] 200), s)
  | .binaryDownload model resId => do
    let (stream, asAttachment) ← binaryDownload S.orm caller model resId params s
    pure (.stream stream asAttachment, s)

/-- The outcome of a request in its transaction. -/
def outcome (s : σ) (v : Visit) : Except Exn (Answer × σ) := do
  let call ← S.call s v
  S.runEndpoint (callerOf call) v.file call.params s v.endpoint

/-- Requests, one after another: the transaction of one that fails is rolled back. -/
def requests : Machine σ Visit (Except Exn Answer) where
  step s v :=
    match S.outcome s v with
    | .ok (answer, s') => (s', .ok answer)
    | .error e => (s, .error e)

end Server

/-! ## Calls of the ORM -/

/-- What the ORM is asked for. -/
inductive Operation where
  | create (valsList : Json)
  | write (ids : List Int) (vals : Json)
  | unlink (ids : List Int)
  | call (method : String) (ids : List Int) (kwargs : Kw)

/-- A call of the ORM by a user. -/
structure OrmCall where
  caller : Caller
  model : String
  operation : Operation

section

variable {σ : Type} (S : Server σ)

/-- `env(user=…)[model]` and one call of it. -/
def Server.perform (c : OrmCall) (s : σ) : Except Exn σ :=
  match c.operation with
  | .create valsList => do
    let target ← resolveTarget S.orm c.model
    let (_, s) ← target.create c.caller valsList s
    pure s
  | .write ids vals => do
    let target ← resolveTarget S.orm c.model
    target.write c.caller ids vals s
  | .unlink ids => do
    let target ← resolveTarget S.orm c.model
    target.unlink c.caller ids s
  | .call method ids kwargs => do
    let target ← OrmController.resolveModel S.app.repr S.app.models c.model
    let func ← getPublicMethod target (some method)
    let (_, s) ← func.call c.caller ids kwargs s
    pure s

/-- Calls of the ORM, one after another. -/
def Server.ormCalls : Machine σ OrmCall (Except Exn Unit) where
  step s c :=
    match S.perform c s with
    | .ok s' => (s', .ok ())
    | .error e => (s, .error e)

/-- The operation that the parameters of a request describe. -/
inductive Asks (loads : String → Except String Json) (file : Option (List UInt8)) (params : Kw) :
    RecordEndpoint → Operation → Prop
  | create {model : String} {valsList : Json}
    (h : valsListOf (params.get "vals") (params.get "vals_list") = .ok valsList) :
    Asks loads file params (.ormCreate model) (.create valsList)
  | write {model : String} {ids : List Int} (h : parseIds loads (params.get "ids") = .ok ids) :
    Asks loads file params (.ormWrite model) (.write ids (params.get "vals"))
  | unlink {model : String} {ids : List Int} (h : parseIds loads (params.get "ids") = .ok ids) :
    Asks loads file params (.ormUnlink model) (.unlink ids)
  | call {model method : String} {ids : List Int}
    (h : parseIds loads (params.get "ids") = .ok ids) :
    Asks loads file params (.ormCall model method)
      (.call method ids (Kw.keywords ["model", "method", "ids"] params))
  | upload {model field : String} {resId : Nat} {data : List UInt8}
    (hfield : params.get "field" = .str field) (hfile : file = some data) :
    Asks loads file params (.binaryUpload model resId)
      (.write [resId] (.obj [(field, .str (b64encode data))]))

/-- The request is authenticated as this user, who passes the access profiles. -/
def Admits (s : σ) (v : Visit) (uid : Nat) : Prop :=
  ∃ identity account, identify S.site (S.database s) v.route v.request = .ok identity ∧
    identity.uid = uid ∧ findAccount (S.database s).users uid = .ok account ∧
    checkRequestAccess (S.database s).profiles (account.principal uid)
      (v.route.describe v.request) = true

/-- The request makes this call of the ORM: as the user it is authenticated as, who passes the
access profiles, in the company and language it selects; and the call succeeds. -/
structure Makes (s : σ) (v : Visit) (c : OrmCall) : Prop where
  admitted : Admits S s v c.caller.uid
  asked : ∃ call, S.call s v = .ok call ∧ c.caller = callerOf call ∧
    Asks S.loads v.file call.params v.endpoint c.operation
  model : c.model = v.endpoint.model
  performed : S.perform c s = .ok (S.requests.next s v)

/-! ## One request -/

variable {S}

theorem Server.admits_of_call {s : σ} {v : Visit} {call : Call} (h : S.call s v = .ok call) :
    Admits S s v call.uid := by
  obtain ⟨served, hserved, h⟩ := bind_ok_iff.mp h
  obtain ⟨_, -, h⟩ := bind_ok_iff.mp h
  cases h
  obtain ⟨identity, user, companyId, params, hidentity, -, hprofile, -, -, rfl⟩ :=
    serve_ok_iff.mp hserved
  obtain ⟨huser, hallow⟩ := enforceAccessProfile_ok_iff.mp hprofile
  exact ⟨identity, user, hidentity, rfl, huser, hallow⟩

theorem Server.perform_write {c : Caller} {model : String} {target : Records σ} {ids : List Int}
    {vals : Json} (htarget : resolveTarget S.orm model = .ok target) (s : σ) :
    S.perform ⟨c, model, .write ids vals⟩ s = target.write c ids vals s := by
  unfold Server.perform
  rw [htarget]
  rfl

/-- An endpoint that returns leaves the state, or has made the call of the ORM it is asked for. -/
theorem Server.runEndpoint_ok {caller : Caller} {file : Option (List UInt8)} {params : Kw}
    {s s' : σ} {e : RecordEndpoint} {answer : Answer}
    (h : S.runEndpoint caller file params s e = .ok (answer, s')) :
    s' = s ∨ ∃ operation, Asks S.loads file params e operation ∧
      S.perform ⟨caller, e.model, operation⟩ s = .ok s' := by
  cases e with
  | ormRead model =>
    obtain ⟨body, -, h⟩ := bind_ok_iff.mp h
    cases h
    exact Or.inl rfl
  | ormCreate model =>
    obtain ⟨⟨body, s''⟩, hcreate, h⟩ := bind_ok_iff.mp h
    cases h
    obtain ⟨target, created, records, htarget, hvals, hcreated⟩ := ormCreate_ok hcreate
    refine Or.inr ⟨.create created, .create hvals, ?_⟩
    simp only [Server.perform, RecordEndpoint.model, htarget, hcreated, bind, Except.bind]
    rfl
  | ormWrite model =>
    obtain ⟨⟨body, s''⟩, hwrite, h⟩ := bind_ok_iff.mp h
    cases h
    obtain ⟨target, records, htarget, hids, hwritten⟩ := ormWrite_ok hwrite
    exact Or.inr ⟨_, .write hids, (Server.perform_write htarget s).trans hwritten⟩
  | ormUnlink model =>
    obtain ⟨s'', hunlink, h⟩ := bind_ok_iff.mp h
    cases h
    obtain ⟨target, records, htarget, hids, hunlinked⟩ := ormUnlink_ok hunlink
    refine Or.inr ⟨_, .unlink hids, ?_⟩
    simp only [Server.perform, RecordEndpoint.model, htarget, bind, Except.bind]
    exact hunlinked
  | ormCall model method =>
    obtain ⟨⟨body, s''⟩, hcall, h⟩ := bind_ok_iff.mp h
    cases h
    simp only [ormCall, bind_ok_iff] at hcall
    obtain ⟨target, htarget, func, hfunc, records, hids, _, -, ⟨result, s''⟩, hresult, hend⟩ :=
      hcall
    cases hend
    refine Or.inr ⟨_, .call hids, ?_⟩
    simp only [Server.perform, RecordEndpoint.model, htarget, hfunc, hresult, bind, Except.bind]
    rfl
  | binaryUpload model resId =>
    obtain ⟨⟨body, s''⟩, hupload, h⟩ := bind_ok_iff.mp h
    cases h
    obtain ⟨target, name, data, htarget, hname, hfile, hwritten⟩ := binaryUpload_ok hupload
    exact Or.inr ⟨_, .upload hname hfile, (Server.perform_write htarget s).trans hwritten⟩
  | binaryDownload model resId =>
    obtain ⟨⟨stream, asAttachment⟩, -, h⟩ := bind_ok_iff.mp h
    cases h
    exact Or.inl rfl

/-- The transaction of a request is committed with its answer, or rolled back. -/
theorem Server.step_requests (S : Server σ) (s : σ) (v : Visit) :
    (∃ answer s', S.outcome s v = .ok (answer, s') ∧ S.requests.step s v = (s', .ok answer)) ∨
      ∃ e, S.outcome s v = .error e ∧ S.requests.step s v = (s, .error e) := by
  unfold Server.requests
  dsimp only
  cases S.outcome s v with
  | ok outcome => exact Or.inl ⟨outcome.1, outcome.2, rfl, rfl⟩
  | error e => exact Or.inr ⟨e, rfl, rfl⟩

/-- The transaction of a request that is answered is committed. -/
theorem Server.outcome_of_answer {s : σ} {v : Visit} {answer : Answer}
    (h : S.requests.answer s v = .ok answer) :
    S.outcome s v = .ok (answer, S.requests.next s v) := by
  unfold Machine.answer Machine.next at *
  rcases S.step_requests s v with ⟨answer', s', houtcome, hstep⟩ | ⟨e, -, hstep⟩
  · rw [hstep] at h ⊢
    cases h
    exact houtcome
  · rw [hstep] at h
    cases h

/-- The transaction of a request that fails is rolled back. -/
theorem Server.next_of_error {s : σ} {v : Visit} {e : Exn}
    (h : S.requests.answer s v = .error e) : S.requests.next s v = s := by
  unfold Machine.answer Machine.next at *
  rcases S.step_requests s v with ⟨answer, s', -, hstep⟩ | ⟨e', -, hstep⟩
  · rw [hstep] at h
    cases h
  · rw [hstep]

/-- A call of the ORM that succeeds is a step. -/
theorem Server.next_ormCalls {s s' : σ} {c : OrmCall} (h : S.perform c s = .ok s') :
    S.ormCalls.next s c = s' := by
  unfold Machine.next Server.ormCalls
  dsimp only
  rw [h]

/-- Each request leaves the state or makes one call of the ORM. -/
theorem Server.requests_refines (S : Server σ) : S.requests.Refines S.ormCalls (Makes S) := by
  intro s v
  cases hanswer : S.requests.answer s v with
  | error e => exact Or.inl (Server.next_of_error hanswer)
  | ok answer =>
    obtain ⟨call, hcall, hendpoint⟩ := bind_ok_iff.mp (Server.outcome_of_answer hanswer)
    rcases S.runEndpoint_ok hendpoint with hstay | ⟨operation, hasks, hperform⟩
    · exact Or.inl hstay
    · exact Or.inr ⟨⟨callerOf call, v.endpoint.model, operation⟩,
        ⟨Server.admits_of_call hcall, ⟨call, hcall, rfl, hasks⟩, rfl, hperform⟩,
        Server.next_ormCalls hperform⟩

/-! ## Runs -/

/-- **No power of its own.**  What a run of requests leaves in the database, calls of the ORM leave,
at most one for each request: each as the user that request is authenticated as, who passes the
access profiles as they then are, and on what its parameters describe.  So a run keeps what such
calls keep, and a request that fails leaves everything as it was. -/
theorem runs_are_ormCalls (S : Server σ) (s : σ) (run : List Visit) :
    (∃ calls, S.ormCalls.exec s calls = S.requests.exec s run ∧ calls.length ≤ run.length ∧
      ∀ c ∈ calls, S.requests.Past (fun s v => Makes S s v c) s run) ∧
    (∀ I : σ → Prop, (∀ s v c, Makes S s v c → I s → I (S.ormCalls.next s c)) → I s →
      I (S.requests.exec s run)) ∧
    ∀ v e, S.requests.answer (S.requests.exec s run) v = .error e →
      S.requests.next (S.requests.exec s run) v = S.requests.exec s run := by
  refine ⟨S.requests_refines.run s run, fun I hkeep h0 => ?_, fun v e => Server.next_of_error⟩
  refine S.requests.invariant (fun s v hs => ?_) h0 run
  rcases S.requests_refines s v with hstay | ⟨c, hmakes, hnext⟩
  · rwa [hstay]
  · rw [← hnext]
    exact hkeep s v c hmakes hs

end

/-! ## One write -/

/-- Notes, of which a state keeps the text of number 3. -/
def notes : Records String where
  create _ _ _ := .error (.userError .accessError 403 "note")
  write _ ids vals s :=
    match ids, vals.field "text" with
    | [3], some (.str text) => .ok text
    | [], _ => .ok s
    | _, _ => .error (.userError .missingError 404 "note")
  unlink _ _ _ := .error (.userError .accessError 403 "note")
  hasRecord id _ := id == 3
  checkRead _ _ _ := .ok ()
  fieldType _ := none
  stream _ _ _ _ := .error (.python "ValueError")
  serialize _ _ _ _ := .ok (.arr [])

def noteServer : Server String where
  site := sampleSite
  database _ := { scopedDatabase with profiles := [] }
  orm :=
    { models := fun model => if model = "note" then some notes else none
      repr := fun _ => ""
      str := fun _ => "" }
  app :=
    { models := fun _ => none
      repr := fun _ => ""
      serverAction := fun _ _ _ s => .ok (.value .null, s)
      handler := fun _ _ _ _ _ => .error (.python "NotImplementedError") }
  loads _ := .error ""

/-- A write of note 3 with the key of user 7. -/
def noteWrite : Visit where
  endpoint := .ormWrite "note"
  pattern := "/api/v1/orm/<string:model>/write"
  request := { keyedRequest with
    path := "/api/v1/orm/note/write"
    method := "PATCH"
    contentLength := 36
    jsonData := .ok (.obj [("ids", .int 3), ("vals", .obj [("text", .str "new")])]) }
  file := none

/-- The write is one call of the ORM; there is one, since the text has changed. -/
theorem runs_are_ormCalls_note :
    noteServer.requests.exec "old" [noteWrite] = "new" ∧
      ∃ c, noteServer.ormCalls.exec "old" [c] = "new" ∧ Makes noteServer "old" noteWrite c := by
  have hnew : noteServer.requests.exec "old" [noteWrite] = "new" := by rfl
  obtain ⟨calls, hexec, hlength, hpast⟩ := (runs_are_ormCalls noteServer "old" [noteWrite]).1
  rw [hnew] at hexec
  refine ⟨hnew, ?_⟩
  match calls, hexec, hlength, hpast with
  | [], hexec, _, _ => exact absurd hexec (by decide)
  | [c], hexec, _, hpast =>
    obtain ⟨before, v, after, hrun, hmakes⟩ := hpast c List.mem_cons_self
    refine ⟨c, hexec, ?_⟩
    cases before with
    | nil =>
      cases hrun
      exact hmakes
    | cons _ before => cases before <;> cases hrun

end SsiRest.RecordEndpoints
