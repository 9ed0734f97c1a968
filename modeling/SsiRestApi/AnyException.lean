import SsiRestApi.RequestLog.Dispatcher

/-!
# Exceptions of any class

`handle_error` meets exceptions of any class.  What it does with one depends on what
`isinstance` says of it and on the attributes it reads.

    an access error and an exception nothing classifies show nothing of themselves, except
      a traceback to a system user                                (errorEnvelopes_alike)
    the exceptions told apart elsewhere are handled as there      (handleError_ofExn)
-/

namespace SsiRest.AnyException

open Py Tx

/-! ## Exceptions -/

/-- A class `isinstance` is asked about. -/
inductive ExnClass where
  | httpException
  | restAuthError
  | requestEntityTooLarge
  | missingError
  | lockError
  | accessDenied
  | accessError
  | userError
  deriving DecidableEq

/-- The class it is a subclass of. -/
def ExnClass.base : ExnClass → Option ExnClass
  | restAuthError | requestEntityTooLarge => some httpException
  | missingError | lockError | accessDenied | accessError => some userError
  | httpException | userError => none

theorem ExnClass.base_base {cls base : ExnClass} (h : cls.base = some base) : base.base = none := by
  cases cls <;> cases h <;> rfl

/-- An exception of any class; an instance of a class is one of its base.  It may have other
attributes, which nothing reads. -/
structure PyException where
  isInstance : ExnClass → Bool
  isInstance_base : ∀ cls base, cls.base = some base → isInstance cls = true →
    isInstance base = true
  /-- `exc.http_status` of a `UserError`. -/
  httpStatus : Int
  /-- `exc.code`, `exc.error_code` and `exc.description` of a `RestAuthError`. -/
  code : Int
  errorCode : String
  description : String
  /-- `exc.response` of an `HTTPException`. -/
  response : Option Response
  /-- `getattr(exc, "rest_headers", ())`. -/
  restHeaders : List (String × String)
  /-- `str(exc)`. -/
  text : String
  /-- `format_traceback(exc)`. -/
  traceback : String

/-- `_EXCEPTION_CODE_MAP`. -/
def exceptionCodeMap : List (ExnClass × String) :=
  [(.missingError, "missing_record"), (.lockError, "lock_error"), (.accessDenied, "access_denied"),
   (.accessError, "access_denied"), (.userError, "validation_error")]

/-- `classify_exception`. -/
def PyException.classify (exc : PyException) : Int × String × String :=
  if exc.isInstance .restAuthError then (exc.code, exc.errorCode, exc.description)
  else if exc.isInstance .requestEntityTooLarge then
    (413, "payload_too_large", payloadTooLargeMessage)
  else match exceptionCodeMap.find? fun row => exc.isInstance row.1 with
    | some (_, code) => (exc.httpStatus, code, (genericMessages.lookup code).getD exc.text)
    | none => (500, "internal_error", internalErrorMessage)

/-- The response it was raised with, if it is an `HTTPException`. -/
def PyException.prebuilt (exc : PyException) : Option Response :=
  if exc.isInstance .httpException then exc.response else none

/-! ## Handling an error -/

/-- `request.env`. -/
structure Environment where
  users : Accounts
  uid : Option Nat
  /-- `ssi_rest_api.expose_traceback`. -/
  exposeTraceback : Option String

/-- The request, with the id among `future_response.headers` and the `uuid4` a new one is made
of. -/
structure Request where
  env : Option Environment
  requestId : Option String
  uuid : String

/-- `_ensure_request_id`. -/
def Request.ensureRequestId (request : Request) : String × Request :=
  match filledIn request.requestId with
  | some requestId => (requestId, request)
  | none => (request.uuid, { request with requestId := some request.uuid })

theorem env_ensureRequestId (request : Request) :
    request.ensureRequestId.2.env = request.env := by
  unfold Request.ensureRequestId
  split <;> rfl

/-- `traceback_disclosure_allowed`. -/
def disclosureAllowed : Option Environment → Bool
  | none => false
  | some env => tracebackDisclosureAllowed env.users env.uid env.exposeTraceback

/-- The envelope of an error that is classified so. -/
def envelope (classified : Int × String × String) (restHeaders : List (String × String))
    (details : Json) (requestId : String) : Response :=
  let (status, code, message) := classified
  makeJsonResponse (buildErrorBody code message status requestId details)
    ((requestIdHeader, requestId) :: restHeaders) status

/-- `handle_error`. -/
def handleError (request : Request) (exc : PyException) : Response × Request :=
  match exc.prebuilt with
  | some response => (response, request)
  | none =>
    let (requestId, request) := request.ensureRequestId
    let details : Json :=
      if disclosureAllowed request.env then .obj [("traceback", .str exc.traceback)] else .null
    (envelope exc.classify exc.restHeaders details requestId, request)

/-! ## What two responses share -/

/-- An object whose fields of that name have another value. -/
def mapField (key : String) (f : Json → Json) : Json → Json
  | .obj fields => .obj (fields.map fun x => if x.1 = key then (x.1, f x.2) else x)
  | v => v

/-- The response with a field of its `error` changed. -/
def mapError (key : String) (f : Json → Json) (r : Response) : Response :=
  match r.payload with
  | none => r
  | some body => makeJsonResponse (mapField "error" (mapField key f) body) r.headers r.statusCode

/-- The response with another request id, in its body and in its headers. -/
def withRequestId (requestId : String) (r : Response) : Response :=
  mapError "request_id" (fun _ => .str requestId)
    { r with headers := r.headers.map fun h => if h.1 = requestIdHeader then (h.1, requestId) else h }

def withoutDetails (r : Response) : Response := mapError "details" (fun _ => .null) r

/-- Equal but for the request id. -/
def SameResponse (r r' : Response) : Prop :=
  ∀ requestId, withRequestId requestId r = withRequestId requestId r'

/-! ## Outcomes -/

/-- The order of the classes in `classify_exception`. -/
def classOrder : List ExnClass :=
  [.restAuthError, .requestEntityTooLarge, .missingError, .lockError, .accessDenied, .accessError,
   .userError]

/-- The first class in that order the exception is an instance of. -/
def PyException.takenFor (exc : PyException) : Option ExnClass := classOrder.find? exc.isInstance

/-- An `AccessDenied` or an `AccessError` with its stock status. -/
def PyException.Denied (exc : PyException) : Prop :=
  (exc.takenFor = some .accessDenied ∨ exc.takenFor = some .accessError) ∧ exc.httpStatus = 403

/-- An exception of no class that is looked for. -/
def PyException.Unclassified (exc : PyException) : Prop := exc.takenFor = none

/-- Both `access_denied` or both `internal_error`. -/
def SameOutcome (exc exc' : PyException) : Prop :=
  (exc.Denied ∧ exc'.Denied) ∨ (exc.Unclassified ∧ exc'.Unclassified)

/-- The user is in `base.group_system`. -/
def SystemCaller (env : Option Environment) : Prop :=
  ∃ e uid user, env = some e ∧ e.uid = some uid ∧ (e.users.find? fun u => u.id == uid) = some user ∧
    user.val.allGroups.contains .system = true

/-- `expose_traceback` is `"True"`. -/
def Exposes (env : Option Environment) : Prop :=
  ∃ e, env = some e ∧ e.exposeTraceback = some "True"

/-! ## Classification -/

/-- What the first class an exception is an instance of makes of it. -/
theorem PyException.classify_eq (exc : PyException) :
    exc.classify = match exc.takenFor with
      | some .restAuthError => (exc.code, exc.errorCode, exc.description)
      | some .requestEntityTooLarge => (413, "payload_too_large", payloadTooLargeMessage)
      | some .missingError => (exc.httpStatus, "missing_record", exc.text)
      | some .lockError => (exc.httpStatus, "lock_error", exc.text)
      | some .accessDenied | some .accessError =>
        (exc.httpStatus, "access_denied", accessDeniedMessage)
      | some .userError => (exc.httpStatus, "validation_error", exc.text)
      | some .httpException | none => (500, "internal_error", internalErrorMessage) := by
  unfold PyException.classify PyException.takenFor classOrder exceptionCodeMap
  simp only [List.find?_cons, List.find?_nil]
  cases exc.isInstance .restAuthError with
  | true => rfl
  | false =>
  cases exc.isInstance .requestEntityTooLarge with
  | true => rfl
  | false =>
  cases exc.isInstance .missingError with
  | true => rfl
  | false =>
  cases exc.isInstance .lockError with
  | true => rfl
  | false =>
  cases exc.isInstance .accessDenied with
  | true => rfl
  | false =>
  cases exc.isInstance .accessError with
  | true => rfl
  | false => cases exc.isInstance .userError <;> rfl

theorem PyException.Denied.classify {exc : PyException} (h : exc.Denied) :
    exc.classify = (403, "access_denied", accessDeniedMessage) := by
  obtain ⟨hclass, hstatus⟩ := h
  rw [classify_eq, hstatus]
  rcases hclass with hclass | hclass <;> rw [hclass]

theorem PyException.Unclassified.classify {exc : PyException} (h : exc.Unclassified) :
    exc.classify = (500, "internal_error", internalErrorMessage) := by
  rw [classify_eq, h]

theorem SameOutcome.classify {exc exc' : PyException} (h : SameOutcome exc exc') :
    exc.classify = exc'.classify := by
  rcases h with ⟨h, h'⟩ | ⟨h, h'⟩
  · rw [h.classify, h'.classify]
  · rw [h.classify, h'.classify]

/-! ## Disclosure -/

theorem tracebackDisclosureAllowed_iff {users : Accounts} {uid : Option Nat}
    {param : Option String} :
    tracebackDisclosureAllowed users uid param = true ↔
      (∃ id user, uid = some id ∧ (users.find? fun u => u.id == id) = some user ∧
        user.val.allGroups.contains .system = true) ∧ param = some "True" := by
  unfold tracebackDisclosureAllowed
  constructor
  · intro h
    split at h
    · cases h
    · next user huser =>
      obtain ⟨id, hid, hfind⟩ := Option.bind_eq_some_iff.mp huser
      obtain ⟨hgroup, hparam⟩ := Bool.and_eq_true_iff.mp h
      refine ⟨⟨id, user, hid, hfind, hgroup⟩, ?_⟩
      cases param with
      | none => cases hparam
      | some value => rw [show value = "True" from eq_of_beq hparam]
  · rintro ⟨⟨id, user, rfl, hfind, hgroup⟩, rfl⟩
    rw [Option.bind_some, hfind]
    exact Bool.and_eq_true_iff.mpr ⟨hgroup, rfl⟩

/-- A traceback is shown to a system user, when it is exposed. -/
theorem disclosureAllowed_iff (env : Option Environment) :
    disclosureAllowed env = true ↔ SystemCaller env ∧ Exposes env := by
  cases env with
  | none => exact iff_of_false nofun fun ⟨⟨e, _, _, h, _⟩, _⟩ => nomatch h
  | some env =>
    have hallowed : disclosureAllowed (some env) =
        tracebackDisclosureAllowed env.users env.uid env.exposeTraceback := rfl
    rw [hallowed, tracebackDisclosureAllowed_iff]
    constructor
    · rintro ⟨⟨uid, user, huid, hfind, hgroup⟩, hexpose⟩
      exact ⟨⟨env, uid, user, rfl, huid, hfind, hgroup⟩, env, rfl, hexpose⟩
    · rintro ⟨⟨_, uid, user, ⟨⟩, huid, hfind, hgroup⟩, _, ⟨⟩, hexpose⟩
      exact ⟨⟨uid, user, huid, hfind, hgroup⟩, hexpose⟩

/-! ## Envelopes -/

theorem withRequestId_envelope (classified : Int × String × String) (details : Json)
    (requestId requestId' : String) :
    withRequestId requestId' (envelope classified [] details requestId) =
      envelope classified [] details requestId' := by
  simp [withRequestId, envelope, mapError, mapField, makeJsonResponse, buildErrorBody]

theorem withoutDetails_envelope (classified : Int × String × String)
    (restHeaders : List (String × String)) (details : Json) (requestId : String) :
    withoutDetails (envelope classified restHeaders details requestId) =
      envelope classified restHeaders .null requestId := by
  simp [withoutDetails, envelope, mapError, mapField, makeJsonResponse, buildErrorBody]

/-- What is shown of an exception. -/
theorem exists_handleError_eq (request : Request) {exc : PyException} (hresponse : exc.prebuilt = none)
    (hheaders : exc.restHeaders = []) :
    ∃ requestId details, (handleError request exc).1 = envelope exc.classify [] details requestId ∧
      (¬ (SystemCaller request.env ∧ Exposes request.env) → details = .null) := by
  unfold handleError
  rw [hresponse, hheaders]
  refine ⟨_, _, rfl, fun h => if_neg ?_⟩
  rw [env_ensureRequestId, disclosureAllowed_iff]
  exact h

/-- **Error envelopes are opaque.**  Two exceptions of the same outcome have the same response but
for the request id, whoever asks; to a system user the traceback in `details` may be shown. -/
theorem errorEnvelopes_alike (request request' : Request) (exc exc' : PyException)
    (houtcome : SameOutcome exc exc') (hresponse : exc.prebuilt = none)
    (hresponse' : exc'.prebuilt = none) (hheaders : exc.restHeaders = [])
    (hheaders' : exc'.restHeaders = []) :
    let response := (handleError request exc).1
    let response' := (handleError request' exc').1
    (¬ SystemCaller request.env → ¬ SystemCaller request'.env → SameResponse response response') ∧
      SameResponse (withoutDetails response) (withoutDetails response') ∧
      (¬ Exposes request.env → ¬ Exposes request'.env → SameResponse response response') := by
  intro response response'
  obtain ⟨requestId, details, hr, hnull⟩ := exists_handleError_eq request hresponse hheaders
  obtain ⟨requestId', details', hr', hnull'⟩ := exists_handleError_eq request' hresponse' hheaders'
  have hsame : details = .null → details' = .null → SameResponse response response' := by
    intro h h' id
    rw [show response = _ from hr, show response' = _ from hr', houtcome.classify, h, h',
      withRequestId_envelope, withRequestId_envelope]
  refine ⟨fun h h' => ?_, fun id => ?_, fun h h' => ?_⟩
  · exact hsame (hnull fun hd => h hd.1) (hnull' fun hd => h' hd.1)
  · rw [show response = _ from hr, show response' = _ from hr', houtcome.classify,
      withoutDetails_envelope, withoutDetails_envelope, withRequestId_envelope,
      withRequestId_envelope]
  · exact hsame (hnull fun hd => h hd.2) (hnull' fun hd => h' hd.2)

/-! ## The exceptions told apart elsewhere -/

/-- The class of such an exception, as far as it is told apart. -/
def classOf : Exn → Option ExnClass
  | .restAuthError _ _ _ _ => some .restAuthError
  | .httpException .requestEntityTooLarge _ => some .requestEntityTooLarge
  | .httpException _ _ => some .httpException
  | .userError .missingError _ _ => some .missingError
  | .userError .lockError _ _ => some .lockError
  | .userError .accessDenied _ _ => some .accessDenied
  | .userError .accessError _ _ => some .accessError
  | .userError .userError _ _ => some .userError
  | .python _ => none

def statusOf : Exn → Int
  | .restAuthError _ _ status _ | .userError _ status _ => status
  | _ => 0

def textOf : Exn → String
  | .restAuthError _ description _ _ => description
  | .userError _ _ message => message
  | .httpException _ _ | .python _ => ""

def errorCodeOf : Exn → String
  | .restAuthError errorCode _ _ _ => errorCode
  | _ => ""

/-- Such an exception, with the attributes that are read of it. -/
def ofExn (formatTraceback : Exn → String) (exc : Exn) : PyException where
  isInstance cls := (classOf exc).any fun own => own == cls || own.base == some cls
  isInstance_base := by
    intro cls base hbase h
    rw [Option.any_eq_true] at h ⊢
    obtain ⟨own, hown, h⟩ := h
    refine ⟨own, hown, ?_⟩
    rcases Bool.or_eq_true_iff.mp h with h | h
    · rw [eq_of_beq h, hbase]
      simp
    · rw [ExnClass.base_base (eq_of_beq h)] at hbase
      cases hbase
  httpStatus := statusOf exc
  code := statusOf exc
  errorCode := errorCodeOf exc
  description := textOf exc
  response := exc.response
  restHeaders := exc.restHeaders
  text := textOf exc
  traceback := formatTraceback exc

variable {formatTraceback : Exn → String}

theorem classify_ofExn (exc : Exn) :
    (ofExn formatTraceback exc).classify = classifyException exc := by
  cases exc with
  | restAuthError => rfl
  | httpException cls => cases cls <;> rfl
  | userError cls => cases cls <;> rfl
  | python => rfl

theorem prebuilt_ofExn (exc : Exn) : (ofExn formatTraceback exc).prebuilt = exc.response := by
  cases exc with
  | restAuthError => rfl
  | httpException cls => cases cls <;> rfl
  | userError cls => cases cls <;> rfl
  | python => rfl

/-- They are handled as the closed model has it. -/
theorem handleError_ofExn (request : Request) (exc : Exn) :
    (handleError request (ofExn formatTraceback exc)).1 =
      errorResponse request.ensureRequestId.1
        (if disclosureAllowed request.env then .obj [("traceback", .str (formatTraceback exc))]
          else .null) exc := by
  unfold handleError errorResponse
  rw [prebuilt_ofExn, classify_ofExn]
  cases exc.response with
  | some response => rfl
  | none =>
    dsimp only
    rw [env_ensureRequestId]
    rfl

/-- The request of a dispatcher that logs. -/
def requestOf (W : RequestLog.Serving) (s : RequestLog.RequestState) (a : RequestLog.Attempt) :
    Request where
  env := if W.hasDb then some ⟨a.db.users, s.uid, a.exposeTraceback⟩ else none
  requestId := s.requestId
  uuid := W.uuid

/-- The dispatcher that logs answers with the same response. -/
theorem requestLog_handleError (W : RequestLog.Serving) {s : RequestLog.RequestState}
    (hid : s.requestId ≠ some "") (a : RequestLog.Attempt) (exc : Exn) :
    (RequestLog.handleError W s a exc).2 =
      (handleError (requestOf W s a) (ofExn W.formatTraceback exc)).1 := by
  have hensured : (requestOf W s a).ensureRequestId.1 = s.requestId.getD W.uuid := by
    unfold Request.ensureRequestId requestOf
    cases hs : s.requestId with
    | none => rfl
    | some requestId =>
      have hfilled : filledIn (some requestId) = some requestId :=
        Option.filter_eq_some_iff.mpr ⟨rfl, decide_eq_true fun h => hid (by rw [hs, h])⟩
      dsimp only
      rw [hfilled]
      rfl
  have hallowed : disclosureAllowed (requestOf W s a).env =
      (W.hasDb && tracebackDisclosureAllowed a.db.users s.uid a.exposeTraceback) := by
    unfold requestOf
    cases W.hasDb <;> rfl
  rw [handleError_ofExn, hensured, hallowed]
  unfold RequestLog.handleError
  cases hresponse : exc.response with
  | some response => simp only [errorResponse, hresponse]
  | none => simp [RequestLog.RequestState.ensureRequestId]

/-! ## A denied request -/

/-- A system user who is shown tracebacks. -/
def exposed : Request where
  env := some ⟨[⟨2, ⟨"admin", none, true, [.user, .system], 1, [1], true⟩⟩], some 2, some "True"⟩
  requestId := none
  uuid := "4f0c"

def tracebackText : Exn → String
  | .userError _ _ message => "Traceback (most recent call last): " ++ message
  | _ => ""

theorem errorEnvelopes_alike_access :
    SameResponse
      (withoutDetails (handleError exposed (ofExn tracebackText
        (.userError .accessError 403 "Secret Configuration (secret.config)"))).1)
      (withoutDetails (handleError exposed (ofExn tracebackText
        (.userError .accessDenied 403 "Access Denied"))).1) :=
  (errorEnvelopes_alike exposed exposed _ _ (.inl ⟨⟨.inr rfl, rfl⟩, .inl rfl, rfl⟩) rfl rfl rfl
    rfl).2.1

end SsiRest.AnyException
