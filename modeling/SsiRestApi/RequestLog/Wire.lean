import Mathlib.Data.Nat.Digits.Defs
import SsiRestApi.Lib.JsonRoundTrip
import SsiRestApi.RequestLog.Audit

/-!
# What the log and the client read

The dispatcher measures a response by the bytes it holds (`response.get_data()`), before
the server decides whether the request and the status allow for a body.  However many
attempts a request takes, the last row the log keeps of it has the status of the response
and the size and the record count of these bytes, which are those of what the client
receives exactly when the body is sent; and when the request fails and its body is sent,
what the client receives reads as the envelope of the row's request id, status and error
code (client_reads_logged).
-/

namespace SsiRest.RequestLog

open Py Tx

/-! ## Bytes -/

/-- `response.get_data()` of a response of `make_json_response`. -/
def responseData (response : Response) : List UInt8 :=
  encodeUtf8 ((response.payload.bind (Json.dumps false)).getD "")

/-- The server sends a body: not to a HEAD request, and not with the statuses that have none. -/
def bodySent (method : String) (status : Int) : Bool :=
  method ≠ "HEAD" && !(100 ≤ status && status < 200) && status ≠ 204 && status ≠ 304

/-- The bytes of the body that the client receives. -/
def receivedData (method : String) (response : Response) : List UInt8 :=
  if bodySent method response.statusCode then responseData response else []

/-- `isinstance(v, int)`. -/
def docInt : Doc → Option Int
  | .int i => some i
  | .bool b => some (if b then 1 else 0)
  | _ => none

/-- `len` of a list, `none` of anything else. -/
def docLength : Doc → Option Nat
  | .arr items => some items.length
  | _ => none

/-- `_estimate_record_count`, of the bytes of a response. -/
def dataRecordCount (data : List UInt8) : Int :=
  if data.isEmpty then 0
  else
    match Doc.loads data with
    | some (.arr items) => items.length
    | some (.obj fields) =>
      match ((Doc.obj fields).get "length").bind docInt with
      | some length => length
      | none =>
        match ["records", "ids", "result"].findSome? fun key =>
          ((Doc.obj fields).get key).bind docLength with
        | some n => n
        | none => if ((Doc.obj fields).get "id").isSome then 1 else 0
    | _ => 0

/-- A value `json.dumps` writes and `json.loads` reads: a dictionary has each key once. -/
structure Sendable (data : Json) : Prop where
  written : (data.dumps false).isSome = true
  readable : data.Readable
  keys : ∀ fields, data = .obj fields → (fields.map Prod.fst).Nodup

theorem loads_responseData {data : Json} (h : Sendable data) (headers : List (String × String))
    (status : Int) :
    Doc.loads (responseData (makeJsonResponse data headers status)) = some data.toDoc := by
  obtain ⟨text, htext⟩ := Option.isSome_iff_exists.mp h.written
  have hdata : responseData (makeJsonResponse data headers status) = encodeUtf8 text := by
    show encodeUtf8 ((data.dumps false).getD "") = _
    rw [htext, Option.getD_some]
  rw [hdata, Doc.loads_dumps htext h.readable]

theorem responseData_ne_nil {data : Json} (h : Sendable data) (headers : List (String × String))
    (status : Int) : responseData (makeJsonResponse data headers status) ≠ [] := by
  intro hdata
  have hloads := loads_responseData h headers status
  rw [hdata] at hloads
  cases hloads

theorem length_responseData {data : Json} (h : Sendable data)
    (headers : List (String × String)) (status : Int) :
    (responseData (makeJsonResponse data headers status)).length =
      (makeJsonResponse data headers status).size := by
  obtain ⟨text, htext⟩ := Option.isSome_iff_exists.mp h.written
  show (encodeUtf8 ((data.dumps false).getD "")).length =
    ((data.dumps false).map String.utf8ByteSize).getD 0
  rw [htext, Option.getD_some, Option.map_some, Option.getD_some, length_encodeUtf8]

theorem docInt_toDoc (v : Json) : docInt v.toDoc = asInt v := by
  cases v <;> rfl

theorem docLength_toDoc (v : Json) : docLength v.toDoc = listLength v := by
  cases v with
  | arr items => exact congrArg some (Json.length_toDocs items)
  | _ => rfl

/-- The records counted in the bytes are those of the value. -/
theorem dataRecordCount_responseData {data : Json} (h : Sendable data)
    (headers : List (String × String)) (status : Int) :
    dataRecordCount (responseData (makeJsonResponse data headers status)) =
      estimateRecordCount (makeJsonResponse data headers status) := by
  have hloads := loads_responseData h headers status
  have hne : (responseData (makeJsonResponse data headers status)).isEmpty = false :=
    List.isEmpty_eq_false_iff.mpr (responseData_ne_nil h headers status)
  unfold dataRecordCount estimateRecordCount
  rw [hne, hloads]
  dsimp only [makeJsonResponse, Bool.false_eq_true, if_false]
  cases data with
  | arr items =>
    show ((Json.toDocs items).length : Int) = items.length
    rw [Json.length_toDocs]
  | obj fields =>
    have hget : ∀ key, (Doc.obj (Json.toMembers fields)).get key =
        (fields.lookup key).map Json.toDoc := Json.get_toDoc (h.keys fields rfl)
    have hint : ∀ v : Option Json, (v.map Json.toDoc).bind docInt = v.bind asInt := by
      intro v
      cases v with
      | none => rfl
      | some v => exact docInt_toDoc v
    have hlength : ∀ v : Option Json, (v.map Json.toDoc).bind docLength = v.bind listLength := by
      intro v
      cases v with
      | none => rfl
      | some v => exact docLength_toDoc v
    simp only [Json.toDoc, hget, hint, hlength, Option.isSome_map]
    rfl
  | _ => rfl

/-! ## The envelope -/

/-- A member of the error envelope in the bytes of a response. -/
def errorMember (data : List UInt8) (key : String) : Option Doc :=
  ((Doc.loads data).bind (Doc.get "error")).bind (Doc.get key)

theorem readable_status {status : Int} (h : status.natAbs < 1000) :
    (Nat.toDigits 10 status.natAbs).length ≤ 4300 :=
  Nat.le_trans (Nat.toDigits_length 10 status.natAbs 3 (by decide) h) (by decide)

/-- A log row has the size and the record count of these bytes. -/
def LogVals.Measures (row : LogVals) (data : List UInt8) : Prop :=
  row.responseSize = data.length ∧ row.recordCount = dataRecordCount data

/-- The bytes read as the error envelope of a log row, of a response with these headers: its
request id, which a header repeats, its status and, from 400 on, its error code. -/
def LogVals.ReadAs (row : LogVals) (headers : List (String × String)) (data : List UInt8) : Prop :=
  (requestIdHeader, row.requestId) ∈ headers ∧
    errorMember data "request_id" = some (.str (codePoints row.requestId)) ∧
    errorMember data "status" = some (.int row.statusCode) ∧
    ∃ code, errorMember data "code" = some (.str (codePoints code)) ∧
      row.errorCode = if row.statusCode ≥ 400 then some code else none

/-- A row that measures what a response holds measures what is received of it exactly if its
body is sent. -/
theorem LogVals.Measures.received_iff {row : LogVals} {data : Json} (hdata : Sendable data)
    {headers : List (String × String)} {status : Int}
    (h : row.Measures (responseData (makeJsonResponse data headers status))) (method : String) :
    row.Measures (receivedData method (makeJsonResponse data headers status)) ↔
      bodySent method status = true := by
  have hstatus : (makeJsonResponse data headers status).statusCode = status := rfl
  unfold receivedData
  rw [hstatus]
  by_cases hsent : bodySent method status = true
  · rw [if_pos hsent]
    exact iff_of_true h hsent
  · rw [if_neg hsent]
    refine iff_of_false (fun hnone => ?_) hsent
    -- the bytes were measured, and there are some
    have hlength := h.1.symm.trans hnone.1
    rw [List.length_nil, List.length_eq_zero_iff] at hlength
    exact responseData_ne_nil hdata headers status hlength

theorem sendable_buildErrorBody (code message requestId : String) {status : Int}
    (hstatus : status.natAbs < 1000) {details : Json} (hdetails : details.Readable)
    (hwritten : (details.dumps false).isSome = true) :
    Sendable (buildErrorBody code message status requestId details) := by
  obtain ⟨text, htext⟩ := Option.isSome_iff_exists.mp hwritten
  refine ⟨?_, ?_, ?_⟩
  · simp [buildErrorBody, Json.dumps, Json.dumpsFields, htext]
  · exact ⟨⟨trivial, trivial, readable_status hstatus, trivial, hdetails, trivial⟩, trivial⟩
  · rintro fields ⟨⟩
    exact List.nodup_singleton _

/-- The members of the envelope. -/
def envelopeFields (code message : String) (status : Int) (requestId : String) (details : Json) :
    Kw :=
  [("code", .str code), ("message", .str message), ("status", .int status),
    ("request_id", .str requestId), ("details", details)]

/-- They are read back. -/
theorem errorMember_responseData {code message requestId : String} {status : Int} {details : Json}
    (h : Sendable (buildErrorBody code message status requestId details))
    (headers : List (String × String)) (key : String) :
    errorMember (responseData (makeJsonResponse
        (buildErrorBody code message status requestId details) headers status)) key =
      ((envelopeFields code message status requestId details).lookup key).map Json.toDoc := by
  have hone : ([("error", Json.obj (envelopeFields code message status requestId details))].map
      Prod.fst).Nodup := List.nodup_singleton _
  have houter : (buildErrorBody code message status requestId details).toDoc.get "error" =
      some (Json.obj (envelopeFields code message status requestId details)).toDoc :=
    Json.get_toDoc hone "error"
  have hkeys : ((envelopeFields code message status requestId details).map Prod.fst).Nodup := by
    show ["code", "message", "status", "request_id", "details"].Nodup
    decide
  unfold errorMember
  rw [loads_responseData h, Option.bind_some, houter, Option.bind_some, Json.get_toDoc hkeys]

/-! ## Requests -/

/-- The attempt that a request ends with. -/
def lastAttempt (W : Serving) (a : Attempt) (rest : List Attempt) : Attempt :=
  (retrying W).last (outcome W) a rest

variable {W : Serving}

/-- A row that is written measures its response. -/
theorem measures_of_write (hlogs : W.Logs) {write : LogWrite} (hwrite : write.succeeds = true)
    (s : RequestState) {data : Json} (hdata : Sendable data) (headers : List (String × String))
    (status : Int) (errorCode : Option String) :
    ∃ row, (writeRequestLog W s write (makeJsonResponse data headers status) errorCode).rows =
        s.rows ++ [row] ∧ row.Measures (responseData (makeJsonResponse data headers status)) ∧
      row.statusCode = status ∧ row.errorCode = errorCode ∧
      row.requestId = s.requestId.getD W.uuid := by
  refine ⟨buildLogVals W (s.ensureRequestId W) write (makeJsonResponse data headers status)
    errorCode, ?_, ⟨?_, ?_⟩, rfl, rfl, rfl⟩
  · unfold writeRequestLog
    rw [hlogs.2, hlogs.1, hwrite]
    rfl
  · exact (length_responseData hdata headers status).symm
  · exact (dataRecordCount_responseData hdata headers status).symm

theorem errorResponse_of_none (requestId : String) (details : Json) {e : Exn}
    (he : e.response = none) :
    errorResponse requestId details e =
      makeJsonResponse (buildErrorBody (classifyException e).2.1 (classifyException e).2.2
        (classifyException e).1 requestId details)
        ((requestIdHeader, requestId) :: e.restHeaders) (classifyException e).1 := by
  unfold errorResponse
  rw [he]

/-- A failure without a response of its own: `handle_error` answers with the envelope, and its
row is what that reads as. -/
theorem handleError_readAs (hlogs : W.Logs) {a : Attempt} (hwrite : a.failed.succeeds = true)
    (s : RequestState) {e : Exn} (he : e.response = none)
    (hstatus : (classifyException e).1.natAbs < 1000) :
    ∃ row data headers status, (handleError W s a e).1.rows = s.rows ++ [row] ∧
      Sendable data ∧ (handleError W s a e).2 = makeJsonResponse data headers status ∧
      row.Measures (responseData (makeJsonResponse data headers status)) ∧
      row.statusCode = status ∧
      row.ReadAs headers (responseData (makeJsonResponse data headers status)) := by
  unfold handleError
  dsimp only
  rw [he, Option.isSome_none, if_neg Bool.false_ne_true]
  generalize hd : (if (W.hasDb && tracebackDisclosureAllowed a.db.users (s.ensureRequestId W).uid
    a.exposeTraceback) = true then Json.obj [("traceback", .str (W.formatTraceback e))]
    else .null) = details
  have hdetails : details.Readable ∧ (details.dumps false).isSome = true := by
    rw [← hd]
    split
    · exact ⟨⟨trivial, trivial⟩, rfl⟩
    · exact ⟨trivial, rfl⟩
  rw [errorResponse_of_none _ _ he]
  have hbody := sendable_buildErrorBody (classifyException e).2.1 (classifyException e).2.2
    (((s.ensureRequestId W).requestId).getD W.uuid) hstatus hdetails.1 hdetails.2
  have hmember := errorMember_responseData hbody
    ((requestIdHeader, ((s.ensureRequestId W).requestId).getD W.uuid) :: e.restHeaders)
  obtain ⟨row, hrows, hmeasures, hcode, herror, hid⟩ := measures_of_write hlogs hwrite
    (s.ensureRequestId W) hbody
    ((requestIdHeader, ((s.ensureRequestId W).requestId).getD W.uuid) :: e.restHeaders)
    (classifyException e).1
    (if (classifyException e).1 ≥ 400 then some (classifyException e).2.1 else none)
  refine ⟨row, _, _, _, hrows, hbody, rfl, hmeasures, hcode, ?_, ?_, ?_,
    (classifyException e).2.1, ?_, ?_⟩
  · rw [hid]
    exact List.mem_cons_self
  · rw [hid]
    exact hmember "request_id"
  · rw [hcode]
    exact hmember "status"
  · exact hmember "code"
  · rw [hcode]
    exact herror

/-- **The log keeps what the client reads.**  A request that ends in an answer of
`make_json_response`, or fails with an exception that brings no response of its own, leaves as
its last row one with the status of the client's response that measures what the response
holds.  The row measures the bytes the client receives exactly if the body is sent, and of a
request that failed these bytes then read as the row. -/
theorem client_reads_logged (hlogs : W.Logs) (sessionUid : Option Nat) (a : Attempt)
    (rest : List Attempt) (hwrites : WritesSucceed (a :: rest))
    (hanswers : ∀ response, outcome W (lastAttempt W a rest) = .ok response →
      ∃ data headers status, Sendable data ∧ response = makeJsonResponse data headers status)
    (hfails : ∀ e, outcome W (lastAttempt W a rest) = .error e →
      e.response = none ∧ (classifyException e).1.natAbs < 1000) :
    let response := (serveRequest W sessionUid a rest).2
    ∃ earlier row, (serveRequest W sessionUid a rest).1.rows = earlier ++ [row] ∧
      row.statusCode = response.statusCode ∧ row.Measures (responseData response) ∧
      (row.Measures (receivedData W.request.method response) ↔
        bodySent W.request.method response.statusCode = true) ∧
      ((∃ e, outcome W (lastAttempt W a rest) = .error e) →
        bodySent W.request.method response.statusCode = true →
        row.ReadAs response.headers (receivedData W.request.method response)) := by
  have hdet := determined W
  have hlast := hwrites _ (Retry.last_mem (retrying W) (outcome W) a rest)
  unfold serveRequest
  rw [Retry.run_eq hdet]
  generalize (retrying W).before (outcome W) (RequestState.initial sessionUid) a rest = s
  unfold lastAttempt at hanswers hfails ⊢
  generalize (retrying W).last (outcome W) a rest = b at hanswers hfails hlast ⊢
  cases hout : outcome W b with
  | ok response =>
    obtain ⟨data, headers, status, hdata, rfl⟩ := hanswers response hout
    obtain ⟨s', hattempt⟩ := serveAttempt_of_outcome hout s
    obtain ⟨row, hrows, hmeasures, hstatus, -, -⟩ :=
      measures_of_write hlogs hlast.1 s' hdata headers status none
    have hfinish : (retrying W).finish s b = (writeRequestLog W s' b.answered
        (makeJsonResponse data headers status) none, makeJsonResponse data headers status) :=
      Retry.finish_ok hattempt
    rw [hfinish]
    exact ⟨s'.rows, row, hrows, hstatus, hmeasures, hmeasures.received_iff hdata _,
      fun ⟨e, he⟩ => nomatch he⟩
  | error e =>
    obtain ⟨he, hstatus⟩ := hfails e hout
    have hattempt := Retry.attempt_eq hdet s b
    rw [hout] at hattempt
    rw [Retry.finish_error hattempt]
    obtain ⟨row, data, headers, status, hrows, hdata, hresponse, hmeasures, hcode, hread⟩ :=
      handleError_readAs hlogs hlast.2 ((retrying W).leave s b) he hstatus
    have hgiveUp : ((retrying W).giveUp ((retrying W).leave s b) b e).2 =
        makeJsonResponse data headers status := hresponse
    dsimp only
    rw [hgiveUp]
    refine ⟨_, row, hrows, hcode, hmeasures, hmeasures.received_iff hdata _, fun _ hsent => ?_⟩
    unfold receivedData
    rw [if_pos hsent]
    exact hread

/-- A request that conflicts and then fails for good. -/
def goneAttempts : Attempt × List Attempt :=
  (attemptOf (.error serializationFailure) (.ok ()),
    [attemptOf (.error (.userError .missingError 404 "Gone")) (.ok ())])

/-- A deletion, and what it is answered with. -/
def deletion : Serving :=
  { sampleServing with request := { keyedRequest with method := "DELETE" } }

def deleted : Response := makeJsonResponse .null [] 204

/-- The client reads the failure as its row has it, and receives none of the four bytes that the
row of a deletion has. -/
theorem client_reads_logged_gone :
    (∃ earlier row, (serveRequest sampleServing none goneAttempts.1 goneAttempts.2).1.rows =
        earlier ++ [row] ∧
      row.ReadAs (serveRequest sampleServing none goneAttempts.1 goneAttempts.2).2.headers
        (receivedData "GET" (serveRequest sampleServing none goneAttempts.1 goneAttempts.2).2)) ∧
    ∃ earlier row, (serveRequest deletion none (attemptOf (.ok deleted) (.ok ())) []).1.rows =
        earlier ++ [row] ∧
      row.responseSize = 4 ∧ ¬ row.Measures (receivedData "DELETE" deleted) := by
  constructor
  · have hout : outcome sampleServing (lastAttempt sampleServing goneAttempts.1 goneAttempts.2) =
        .error (.userError .missingError 404 "Gone") := rfl
    obtain ⟨earlier, row, hrows, -, -, -, hread⟩ := client_reads_logged (W := sampleServing)
      ⟨rfl, rfl⟩ none goneAttempts.1 goneAttempts.2 (attemptOf_writesSucceed _ _ _ _)
      (fun response h => by rw [hout] at h; cases h)
      (fun e h => by
        obtain rfl := Except.error.inj (hout.symm.trans h)
        exact ⟨rfl, by decide⟩)
    exact ⟨earlier, row, hrows, hread ⟨_, hout⟩ (by decide)⟩
  · have hout : outcome deletion (lastAttempt deletion (attemptOf (.ok deleted) (.ok ())) []) =
        .ok deleted := rfl
    obtain ⟨earlier, row, hrows, -, hmeasures, hiff, -⟩ := client_reads_logged (W := deletion)
      ⟨rfl, rfl⟩ none (attemptOf (.ok deleted) (.ok ())) []
      (fun b hb => by
        obtain rfl := List.mem_singleton.mp hb
        exact ⟨rfl, rfl⟩)
      (fun response h => by
        obtain rfl := Except.ok.inj (hout.symm.trans h)
        exact ⟨.null, [], 204, ⟨rfl, trivial, fun fields h => (by cases h)⟩, rfl⟩)
      (fun e h => by rw [hout] at h; cases h)
    exact ⟨earlier, row, hrows, hmeasures.1, fun h => absurd (hiff.mp h) (by decide)⟩

end SsiRest.RequestLog
