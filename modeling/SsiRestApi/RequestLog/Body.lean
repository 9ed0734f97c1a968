import SsiRestApi.Errors

/-!
# What the request log keeps of a body

The redacted request body (`_redact`, `_redacted_request_body`) and the record count
read off a response (`_estimate_record_count`).
-/

namespace SsiRest.RequestLog

open Py

def sensitiveKeys : List String :=
  ["password", "passwd", "pwd", "token", "access_token", "refresh_token", "secret",
   "client_secret", "api_key", "apikey", "authorization", "credential", "credentials", "otp"]

def maxRedactDepth : Nat := 8

def redacted : Json := .str "***"

def isSensitive (key : String) : Bool := sensitiveKeys.contains (lower key)

mutual

/-- `_redact(value, depth)`. -/
def redact (depth : Nat) : Json → Json
  | .obj fields =>
    if depth > maxRedactDepth then redacted else .obj (redactFields (depth + 1) fields)
  | .arr items =>
    if depth > maxRedactDepth then redacted else .arr (redactItems (depth + 1) items)
  | value => if depth > maxRedactDepth then redacted else value

def redactItems (depth : Nat) : List Json → List Json
  | [] => []
  | item :: items => redact depth item :: redactItems depth items

def redactFields (depth : Nat) : Kw → Kw
  | [] => []
  | (key, val) :: fields =>
    (key, if isSensitive key then redacted else redact depth val) :: redactFields depth fields

end

def maxBodyChars : Nat := 10000

/-- `_redacted_request_body`, for the parameter `ssi_rest_api.log_body`. -/
def redactedRequestBody (logBody : Option String) (params : Kw) : Option String :=
  if logBody ≠ some "True" then none
  else if params.isEmpty then none
  else ((redact 0 (.obj params)).dumps true).map fun body => slice body maxBodyChars

/-! ## Responses -/

/-- `len` of a list, `none` of anything else. -/
def listLength : Json → Option Nat
  | .arr items => some items.length
  | _ => none

/-- `isinstance(v, int)`. -/
def asInt : Json → Option Int
  | .int i => some i
  | .bool b => some (if b then 1 else 0)
  | _ => none

/-- `_estimate_record_count`. -/
def estimateRecordCount (response : Response) : Int :=
  match response.payload with
  | some (.arr items) => items.length
  | some (.obj fields) =>
    match (fields.lookup "length").bind asInt with
    | some length => length
    | none =>
      match ["records", "ids", "result"].findSome? fun key =>
        (fields.lookup key).bind listLength with
      | some n => n
      | none => if (fields.lookup "id").isSome then 1 else 0
  | _ => 0

end SsiRest.RequestLog
