import SsiRestApi.ProfileScope

/-!
# Request bodies

`SsiRestDispatcher.dispatch` merges the query string, the body and the path arguments
and calls the endpoint.  A body that is no JSON, or JSON that is neither an object nor
null, is the client's error; `classify_exception` makes a server error of it.

    the endpoint is called with the merged parameters, or the client is told of its error
      ↔ the body is a form, an object or null, or there is none, and no parameter is
        named `self`                                               (body_handled_iff)
-/

namespace SsiRest

open Py

/-- What the body of a request holds: nothing, the fields of a form, or some other text with
what `get_json_data()` makes of it. -/
inductive Body where
  | empty
  | form (fields : Kw)
  | text (data : Except String Json)

/-- `httprequest.args.to_dict()`. -/
def HttpRequest.query (q : HttpRequest) : Kw := q.args.map fun a => (a.1, .str a.2)

/-- The parameters a body brings along. -/
def Body.fields : Body → Kw
  | .form fields => fields
  | .text (.ok (.obj fields)) => fields
  | _ => []

theorem lookup_query (q : HttpRequest) (key : String) :
    q.query.lookup key = (q.args.lookup key).map Json.str := by
  unfold HttpRequest.query
  induction q.args with
  | nil => rfl
  | cons arg args ih =>
    obtain ⟨k, v⟩ := arg
    rw [List.map_cons, List.lookup_cons, List.lookup_cons]
    cases key == k
    · exact ih
    · rfl

theorem mergeParams_form {q : HttpRequest} {pathArgs : Kw} (h : q.mimetype ∈ formMimetypes) :
    mergeParams q pathArgs = .ok (q.formParams.update pathArgs) :=
  if_pos (List.contains_iff_mem.mpr h)

theorem mergeParams_text {q : HttpRequest} {pathArgs : Kw} (h : q.mimetype ∉ formMimetypes) :
    mergeParams q pathArgs =
      (jsonFields q).map fun fields => (q.query.update fields).update pathArgs := by
  unfold mergeParams
  rw [if_neg (fun hc => h (List.contains_iff_mem.mp hc))]
  cases jsonFields q <;> rfl

theorem jsonFields_empty {q : HttpRequest} (h : q.contentLength = 0) : jsonFields q = .ok [] :=
  if_pos h

theorem jsonFields_obj {q : HttpRequest} {fields : Kw} (hlength : q.contentLength ≠ 0)
    (h : q.jsonData = .ok (.obj fields)) : jsonFields q = .ok fields := by
  unfold jsonFields
  rw [if_neg hlength, h]
  cases fields <;> rfl

/-- A POST without query and path arguments, whose body is text of this length. -/
def textRequest (contentLength : Nat) (data : Except String Json) : HttpRequest :=
  { keyedRequest with
    method := "POST", mimetype := "application/json", contentLength := contentLength,
    jsonData := data }

end SsiRest
