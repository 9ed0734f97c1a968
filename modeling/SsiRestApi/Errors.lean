import SsiRestApi.Lib.Json

/-!
# Exceptions and the error envelope

The exceptions a request can end in and `classify_exception`, which maps each to
the status, code and message of the error envelope.
-/

namespace SsiRest

open Py

/-- An HTTP response: status, extra headers, and the size of its body with what
`json.loads` makes of it, if anything. -/
structure Response where
  statusCode : Int
  headers : List (String × String)
  size : Nat
  payload : Option Json

/-- The most specific class of an Odoo `UserError`. -/
inductive UserErrorClass where
  | missingError
  | lockError
  | accessDenied
  | accessError
  | userError
  deriving DecidableEq

/-- The werkzeug exceptions told apart here. -/
inductive HttpClass where
  | badRequest
  | internalServerError
  | requestEntityTooLarge
  | other
  deriving DecidableEq

inductive Exn where
  | restAuthError (errorCode description : String) (status : Int)
      (headers : List (String × String))
  | httpException (cls : HttpClass) (response : Option Response)
  | userError (cls : UserErrorClass) (httpStatus : Int) (message : String)
  /-- Any other exception, by its class name. -/
  | python (type : String)

/-- `RestAuthError(error_code, description, status=…)` without headers. -/
def RestAuthError (errorCode description : String) (status : Int) : Exn :=
  .restAuthError errorCode description status []

/-- `exc.response` of a werkzeug exception raised with a response of its own. -/
def Exn.response : Exn → Option Response
  | .httpException _ response => response
  | _ => none

/-- `getattr(exc, "rest_headers", ())`. -/
def Exn.restHeaders : Exn → List (String × String)
  | .restAuthError _ _ _ headers => headers
  | _ => []

/-! ## Classification -/

def accessDeniedMessage : String := "You are not allowed to perform this action."

def internalErrorMessage : String :=
  "An unexpected error occurred while processing the request."

def payloadTooLargeMessage : String :=
  "The uploaded content exceeds the maximum allowed size."

/-- `_GENERIC_MESSAGES`. -/
def genericMessages : List (String × String) :=
  [("access_denied", accessDeniedMessage),
   ("internal_error", internalErrorMessage),
   ("payload_too_large", payloadTooLargeMessage)]

/-- `_EXCEPTION_CODE_MAP`. -/
def UserErrorClass.code : UserErrorClass → String
  | .missingError => "missing_record"
  | .lockError => "lock_error"
  | .accessDenied => "access_denied"
  | .accessError => "access_denied"
  | .userError => "validation_error"

/-- `(status, code, message)`. -/
def classifyException : Exn → Int × String × String
  | .restAuthError errorCode description status _ => (status, errorCode, description)
  | .httpException .requestEntityTooLarge _ => (413, "payload_too_large", payloadTooLargeMessage)
  | .userError cls httpStatus message =>
    (httpStatus, cls.code, (genericMessages.lookup cls.code).getD message)
  | .httpException _ _ => (500, "internal_error", internalErrorMessage)
  | .python _ => (500, "internal_error", internalErrorMessage)

end SsiRest
