import SsiRestApi.Auth

/-!
# Error responses

`SsiRestDispatcher.handle_error` turns an exception into a response: the one the
exception carries, or the error envelope of its classification.

    the envelope has the classified status and code     (errorResponse_statusCode,
                                                         errorResponse_errorCode)
-/

namespace SsiRest

open Py Tx

def requestIdHeader : String := "X-Request-Id"

/-- `build_error_body`. -/
def buildErrorBody (code message : String) (status : Int) (requestId : String) (details : Json) :
    Json :=
  .obj [("error", .obj [("code", .str code), ("message", .str message), ("status", .int status),
    ("request_id", .str requestId), ("details", details)])]

/-- `make_json_response(data, headers=…, status=…)`. -/
def makeJsonResponse (data : Json) (headers : List (String × String)) (status : Int) :
    Response where
  statusCode := status
  headers := headers
  size := ((Json.dumps false data).map String.utf8ByteSize).getD 0
  payload := some data

/-- `traceback_disclosure_allowed(env)` for the user of the environment and the parameter
`ssi_rest_api.expose_traceback`. -/
def tracebackDisclosureAllowed (users : Accounts) (uid : Option Nat) (param : Option String) :
    Bool :=
  match uid.bind fun uid => users.find? fun u => u.id == uid with
  | none => false
  | some user => user.val.allGroups.contains .system && param.getD "False" == "True"

/-- The response of `handle_error`. -/
def errorResponse (requestId : String) (details : Json) (exc : Exn) : Response :=
  match exc.response with
  | some response => response
  | none =>
    let (status, code, message) := classifyException exc
    makeJsonResponse (buildErrorBody code message status requestId details)
      ((requestIdHeader, requestId) :: exc.restHeaders) status

/-- The code of the error envelope a failed response carries. -/
def Response.errorCode (r : Response) : Option String :=
  if r.statusCode ≥ 400 then
    match r.payload.bind fun body => (body.field "error").bind fun e => e.field "code" with
    | some (.str code) => some code
    | _ => none
  else none

theorem errorResponse_of_response (requestId : String) (details : Json) {exc : Exn}
    {response : Response} (h : exc.response = some response) :
    errorResponse requestId details exc = response := by
  rw [errorResponse, h]

theorem errorResponse_statusCode (requestId : String) (details : Json) {exc : Exn}
    (h : exc.response = none) :
    (errorResponse requestId details exc).statusCode = (classifyException exc).1 := by
  rw [errorResponse, h]
  rfl

theorem errorResponse_errorCode (requestId : String) (details : Json) {exc : Exn}
    (h : exc.response = none) :
    (errorResponse requestId details exc).errorCode =
      if (classifyException exc).1 ≥ 400 then some (classifyException exc).2.1 else none := by
  rw [errorResponse, h]
  rfl

end SsiRest
