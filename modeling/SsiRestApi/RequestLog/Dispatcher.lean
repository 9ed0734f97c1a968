import SsiRestApi.Dispatch
import SsiRestApi.Lib.Retry
import SsiRestApi.RequestLog.Body

/-!
# The dispatcher that logs

`SsiRestDispatcher` of `ssi_rest_api_log`: a request is served in one attempt after
another, and a row is committed on a cursor of its own at the end of `post_dispatch`
and of `handle_error`.

    an attempt writes a row at the end of post_dispatch, and none when it fails before
                                                             (serveAttempt_spec)
-/

namespace SsiRest.RequestLog

open Py Tx

/-- `ssi_rest_request_log`. -/
structure LogVals where
  requestId : String
  userId : Option Nat
  authScheme : Option String
  httpMethod : String
  path : String
  routePattern : Option String
  statusCode : Int
  durationMs : Int
  remoteAddr : Option String
  userAgent : Option String
  modelName : Json
  methodName : Json
  recordCount : Int
  errorCode : Option String
  requestBody : Option String
  responseSize : Nat

/-- What a log write meets: the clock in milliseconds, the parameter `ssi_rest_api.log_body`,
and whether the write goes through. -/
structure LogWrite where
  now : Int
  logBody : Option String
  succeeds : Bool

/-- One attempt at a request: what its transaction sees, what the endpoint answers, the core's
`post_dispatch`, and the flush. -/
structure Attempt where
  db : Database
  endpoint : Call → Except Exn Response
  corePostDispatch : Response → Except Exn Unit
  flush : Except Exn Unit
  /-- The write of `post_dispatch`. -/
  answered : LogWrite
  /-- The write of `handle_error`, should the attempt be the last. -/
  failed : LogWrite
  /-- `ssi_rest_api.expose_traceback`. -/
  exposeTraceback : Option String

/-- A request, and what stays the same through its attempts. -/
structure Serving where
  site : Site
  route : Route
  pathArgs : Kw
  request : HttpRequest
  /-- `request.db`. -/
  hasDb : Bool
  /-- `request.env.cr.readonly`. -/
  readonly : Bool
  /-- `modules.module.current_test`. -/
  currentTest : Bool
  /-- `_log_start_time`, in milliseconds. -/
  startTime : Int
  /-- The `uuid4` a new request id is made of. -/
  uuid : String
  formatTraceback : Exn → String
  /-- Whether `retrying` makes another attempt after one that failed. -/
  retried : Attempt → Exn → Bool

/-- What outlives a failed attempt: the request object, the dispatcher and the committed rows. -/
structure RequestState where
  /-- `request.env.uid`. -/
  uid : Option Nat
  restAuth : Option RestAuthResult
  /-- The request id among `future_response.headers`. -/
  requestId : Option String
  params : Kw
  logRule : Option Route
  logArgs : Option Kw
  rows : List LogVals

/-- A request that nothing has been done for yet. -/
def RequestState.initial (sessionUid : Option Nat) : RequestState :=
  ⟨sessionUid, none, none, [], none, none, []⟩

variable (W : Serving)

/-- `_ensure_request_id`. -/
def RequestState.ensureRequestId (s : RequestState) : RequestState :=
  { s with requestId := some (s.requestId.getD W.uuid) }

/-- What `_authenticate` sets; the core's methods leave `rest_auth` as it was. -/
def RequestState.authenticated (s : RequestState) (identity : Identity) : RequestState :=
  { s with uid := some identity.uid, restAuth := identity.restAuth.or s.restAuth }

/-- What the end of `pre_dispatch` sets. -/
def RequestState.preDispatched (s : RequestState) : RequestState :=
  { s with logRule := some W.route, logArgs := some W.pathArgs }

/-! ## Writing a row -/

/-- `a.get(key) or b or None`. -/
def firstFilled (a : Json) (b : Option String) : Json :=
  (a.orElse ((b.map Json.str).getD .null)).orElse .null

/-- `_build_log_vals`. -/
def buildLogVals (s : RequestState) (write : LogWrite) (response : Response)
    (errorCode : Option String) : LogVals where
  requestId := s.requestId.getD W.uuid
  userId := s.uid
  authScheme := s.restAuth.map (·.scheme)
  httpMethod := W.request.method
  path := W.request.path
  routePattern := s.logRule.map (·.rule)
  statusCode := response.statusCode
  durationMs := write.now - W.startTime
  remoteAddr := W.request.remoteAddr
  userAgent := filledIn (W.request.header "User-Agent")
  modelName := firstFilled (Kw.get (s.logArgs.getD []) "model") (s.logRule.bind (·.model))
  methodName := firstFilled (Kw.get (s.logArgs.getD []) "method") (s.logRule.bind (·.operation))
  recordCount := estimateRecordCount response
  errorCode := errorCode
  requestBody := redactedRequestBody write.logBody s.params
  responseSize := response.size

/-- `_skip_logging_under_test_harness`. -/
def skipLoggingUnderTestHarness : Bool := W.readonly && W.currentTest

/-- `_write_request_log`: a failure is swallowed. -/
def writeRequestLog (s : RequestState) (write : LogWrite) (response : Response)
    (errorCode : Option String) : RequestState :=
  if skipLoggingUnderTestHarness W then s
  else if !W.hasDb then s
  else
    let s := s.ensureRequestId W
    if write.succeeds then { s with rows := s.rows ++ [buildLogVals W s write response errorCode] }
    else s

/-! ## Attempts -/

/-- `authenticate`, `pre_dispatch`, `dispatch` and `post_dispatch`, then the flush. -/
def serveAttempt (s : RequestState) (a : Attempt) : RequestState × Except Exn Response :=
  match identify W.site a.db W.route W.request with
  | .error e => (s, .error e)
  | .ok identity =>
    let s := s.authenticated identity
    match W.site.corePreDispatch W.request with
    | .error e => (s, .error e)
    | .ok _ =>
      let s := s.ensureRequestId W
      match enforceAccessProfile a.db identity.uid (W.route.describe W.request) with
      | .error e => (s, .error e)
      | .ok user =>
        let s := s.preDispatched W
        match resolveCompany a.db user W.request with
        | .error e => (s, .error e)
        | .ok companyId =>
          match mergeParams W.request W.pathArgs with
          | .error e => (s, .error e)
          | .ok params =>
            let s := { s with params := params }
            match a.endpoint ⟨identity.uid, companyId, resolveLang a.db W.request, params⟩ with
            | .error e => (s, .error e)
            | .ok response =>
              match a.corePostDispatch response with
              | .error e => (s, .error e)
              | .ok _ =>
                (writeRequestLog W s a.answered response none, a.flush.map fun _ => response)

/-- `handle_error`. -/
def handleError (s : RequestState) (a : Attempt) (exc : Exn) : RequestState × Response :=
  let s := if exc.response.isSome then s else s.ensureRequestId W
  let disclosed := W.hasDb && tracebackDisclosureAllowed a.db.users s.uid a.exposeTraceback
  let details : Json :=
    if disclosed then .obj [("traceback", .str (W.formatTraceback exc))] else .null
  let response := errorResponse (s.requestId.getD W.uuid) details exc
  let errorCode :=
    if response.statusCode ≥ 400 then some (classifyException exc).2.1 else none
  (writeRequestLog W s a.failed response errorCode, response)

/-- `service_model.retrying`. -/
def retrying : Retry RequestState Attempt Exn Response where
  attempt := serveAttempt W
  retried := W.retried
  giveUp := handleError W

/-! ## What an attempt comes to -/

/-- The response an attempt has at the end of `post_dispatch`. -/
def answer (a : Attempt) : Except Exn Response := do
  let call ← serve W.site a.db W.route W.pathArgs W.request
  let response ← a.endpoint call
  a.corePostDispatch response
  pure response

/-- The outcome of an attempt. -/
def outcome (a : Attempt) : Except Exn Response := do
  let response ← answer W a
  a.flush
  pure response

variable {W}

/-- An attempt is refused before its endpoint, or calls it and fails there or in the core's part
after it, or writes a row for the response. -/
theorem serveAttempt_cases (s : RequestState) (a : Attempt) :
    (∃ e s', serve W.site a.db W.route W.pathArgs W.request = .error e ∧
      serveAttempt W s a = (s', .error e) ∧ answer W a = .error e ∧ s'.rows = s.rows ∧
      s'.params = s.params) ∨
    ∃ call s', serve W.site a.db W.route W.pathArgs W.request = .ok call ∧ s'.rows = s.rows ∧
      s'.params = call.params ∧
      ((∃ e, serveAttempt W s a = (s', .error e) ∧ answer W a = .error e) ∨
        ∃ response, serveAttempt W s a =
            (writeRequestLog W s' a.answered response none, a.flush.map fun _ => response) ∧
          answer W a = .ok response) := by
  unfold serveAttempt answer serve
  simp only [bind, Except.bind, pure, Except.pure]
  cases identify W.site a.db W.route W.request with
  | error e => exact Or.inl ⟨e, s, rfl, rfl, rfl, rfl, rfl⟩
  | ok identity =>
  dsimp only
  cases W.site.corePreDispatch W.request with
  | error e => exact Or.inl ⟨e, _, rfl, rfl, rfl, rfl, rfl⟩
  | ok _ =>
  dsimp only
  cases enforceAccessProfile a.db identity.uid (W.route.describe W.request) with
  | error e => exact Or.inl ⟨e, _, rfl, rfl, rfl, rfl, rfl⟩
  | ok user =>
  dsimp only
  cases resolveCompany a.db user W.request with
  | error e => exact Or.inl ⟨e, _, rfl, rfl, rfl, rfl, rfl⟩
  | ok companyId =>
  dsimp only
  cases mergeParams W.request W.pathArgs with
  | error e => exact Or.inl ⟨e, _, rfl, rfl, rfl, rfl, rfl⟩
  | ok params =>
  refine Or.inr ⟨⟨identity.uid, companyId, resolveLang a.db W.request, params⟩,
    { ((s.authenticated identity).ensureRequestId W).preDispatched W with params := params },
    rfl, rfl, rfl, ?_⟩
  dsimp only
  cases a.endpoint ⟨identity.uid, companyId, resolveLang a.db W.request, params⟩ with
  | error e => exact Or.inl ⟨e, rfl, rfl⟩
  | ok response =>
  dsimp only
  cases a.corePostDispatch response with
  | error e => exact Or.inl ⟨e, rfl, rfl⟩
  | ok _ => exact Or.inr ⟨response, rfl, rfl⟩

/-- An attempt leaves no row when it fails before the end of `post_dispatch`, and there writes
one for its response. -/
theorem serveAttempt_spec (s : RequestState) (a : Attempt) :
    (∃ e s', serveAttempt W s a = (s', .error e) ∧ answer W a = .error e ∧ s'.rows = s.rows) ∨
    ∃ response s', serveAttempt W s a =
        (writeRequestLog W s' a.answered response none, a.flush.map fun _ => response) ∧
      answer W a = .ok response ∧ s'.rows = s.rows := by
  rcases serveAttempt_cases s a with ⟨e, s', -, hattempt, hanswer, hrows, -⟩ |
    ⟨call, s', -, hrows, -, ⟨e, hattempt, hanswer⟩ | ⟨response, hattempt, hanswer⟩⟩
  · exact Or.inl ⟨e, s', hattempt, hanswer, hrows⟩
  · exact Or.inl ⟨e, s', hattempt, hanswer, hrows⟩
  · exact Or.inr ⟨response, s', hattempt, hanswer, hrows⟩

/-- An attempt that ends in a response has written the row of this response last. -/
theorem serveAttempt_of_outcome {a : Attempt} {response : Response}
    (h : outcome W a = .ok response) (s : RequestState) :
    ∃ s', serveAttempt W s a = (writeRequestLog W s' a.answered response none, .ok response) := by
  unfold outcome at h
  rcases serveAttempt_spec (W := W) s a with ⟨e, s', -, ha, -⟩ | ⟨response', s', hs, ha, -⟩
  · rw [ha] at h
    cases h
  · rw [ha] at h
    cases hflush : a.flush with
    | error e =>
      rw [hflush] at h
      cases h
    | ok u =>
      rw [hflush] at h hs
      cases h
      exact ⟨s', hs⟩

end SsiRest.RequestLog
