import SsiRestApi.ProfileScope
import SsiRestApi.RequestLog.Dispatcher

/-!
# One row per response

The committed rows of a request against the response its client receives, over any
number of attempts.

    one row, with the response's status and code ↔ no attempt fails past post_dispatch,
      and the response carries the code its row was given         (audited_once_iff)
-/

namespace SsiRest.RequestLog

open Py Tx

/-- The request as Odoo serves it: the committed rows and the response of the client. -/
def serveRequest (W : Serving) (sessionUid : Option Nat) (a : Attempt) (rest : List Attempt) :
    RequestState × Response :=
  (retrying W).run (RequestState.initial sessionUid) a rest

/-- A row has the status and error code of a response. -/
def LogVals.Describes (row : LogVals) (response : Response) : Prop :=
  row.statusCode = response.statusCode ∧ row.errorCode = response.errorCode

/-- One row is committed for a request, and it describes the response of the client. -/
def AuditedOnce (W : Serving) (sessionUid : Option Nat) (a : Attempt) (rest : List Attempt) :
    Prop :=
  ∃ row, (serveRequest W sessionUid a rest).1.rows = [row] ∧
    row.Describes (serveRequest W sessionUid a rest).2

/-- Every log write that is tried goes through. -/
def WritesSucceed (attempts : List Attempt) : Prop :=
  ∀ a ∈ attempts, a.answered.succeeds = true ∧ a.failed.succeeds = true

/-- Rows are written: there is a database, and no test with a read-only cursor. -/
def Serving.Logs (W : Serving) : Prop :=
  W.hasDb = true ∧ skipLoggingUnderTestHarness W = false

/-- An error response the exception brings along carries the code the exception is classified
as. -/
def LogsItsCode (e : Exn) : Prop :=
  ∀ response, e.response = some response → response.statusCode ≥ 400 →
    response.errorCode = some (classifyException e).2.1

/-- The attempt ends in a response that its row describes: it flushes and carries no error
code, or fails before the end of `post_dispatch`. -/
def EndsTruthfully (W : Serving) (a : Attempt) : Prop :=
  match answer W a with
  | .ok response => a.flush = .ok () ∧ response.errorCode = none
  | .error e => LogsItsCode e

variable {W : Serving}

/-! ## Rows of one attempt -/

theorem writeRequestLog_rows (hlogs : W.Logs) {write : LogWrite} (hwrite : write.succeeds = true)
    (s : RequestState) (response : Response) (errorCode : Option String) :
    ∃ row, (writeRequestLog W s write response errorCode).rows = s.rows ++ [row] ∧
      row.statusCode = response.statusCode ∧ row.errorCode = errorCode := by
  unfold writeRequestLog
  rw [hlogs.2, hlogs.1, hwrite]
  exact ⟨_, rfl, rfl, rfl⟩

theorem writeRequestLog_rows_of_not (hlogs : ¬ W.Logs) (s : RequestState) (write : LogWrite)
    (response : Response) (errorCode : Option String) :
    (writeRequestLog W s write response errorCode).rows = s.rows := by
  unfold writeRequestLog
  cases hskip : skipLoggingUnderTestHarness W with
  | true => rfl
  | false =>
    cases hdb : W.hasDb with
    | true => exact absurd ⟨hdb, hskip⟩ hlogs
    | false => rfl

theorem determined (W : Serving) : (retrying W).Determined (outcome W) := by
  intro s a
  change (serveAttempt W s a).2 = outcome W a
  unfold outcome
  rcases serveAttempt_spec (W := W) s a with ⟨e, s', hs, ha, -⟩ | ⟨response, s', hs, ha, -⟩
  · rw [hs, ha]
    rfl
  · rw [hs, ha]
    cases a.flush <;> rfl

/-- The rows an attempt leaves behind. -/
def answeredRows (W : Serving) (a : Attempt) : Nat :=
  match answer W a with
  | .ok _ => 1
  | .error _ => 0

theorem answeredRows_eq_zero_iff {a : Attempt} :
    answeredRows W a = 0 ↔ ∃ e, answer W a = .error e := by
  unfold answeredRows
  cases answer W a <;> simp

theorem leave_rows (hlogs : W.Logs) {a : Attempt} (hwrite : a.answered.succeeds = true)
    (s : RequestState) :
    ((retrying W).leave s a).rows.length = s.rows.length + answeredRows W a := by
  change (serveAttempt W s a).1.rows.length = _
  unfold answeredRows
  rcases serveAttempt_spec (W := W) s a with ⟨e, s', hs, ha, hrows⟩ | ⟨response, s', hs, ha, hrows⟩
  · rw [hs, ha]
    exact congrArg List.length hrows
  · obtain ⟨row, hrow, -, -⟩ := writeRequestLog_rows hlogs hwrite s' response none
    rw [hs, ha]
    simp [hrow, hrows]

theorem leave_rows_of_not (hlogs : ¬ W.Logs) (s : RequestState) (a : Attempt) :
    ((retrying W).leave s a).rows = s.rows := by
  change (serveAttempt W s a).1.rows = _
  rcases serveAttempt_spec (W := W) s a with ⟨e, s', hs, -, hrows⟩ | ⟨response, s', hs, -, hrows⟩
  · rw [hs]
    exact hrows
  · rw [hs, ← hrows]
    exact writeRequestLog_rows_of_not hlogs _ _ _ _

theorem finish_rows_of_not (hlogs : ¬ W.Logs) (s : RequestState) (a : Attempt) :
    ((retrying W).finish s a).1.rows = s.rows := by
  have hleave := leave_rows_of_not hlogs s a
  cases houtcome : outcome W a with
  | ok response =>
    rw [Retry.finish_ok ((Retry.attempt_eq (determined W) s a).trans (by rw [houtcome]))]
    exact hleave
  | error e =>
    rw [Retry.finish_error ((Retry.attempt_eq (determined W) s a).trans (by rw [houtcome])),
      ← hleave]
    change (handleError W _ a e).1.rows = _
    unfold handleError
    dsimp only
    rw [writeRequestLog_rows_of_not hlogs]
    split <;> rfl

/-- The code of an error row is the one of its response exactly when the exception logs its
code. -/
theorem errorCode_eq_iff (requestId : String) (details : Json) (e : Exn) :
    (if (errorResponse requestId details e).statusCode ≥ 400 then some (classifyException e).2.1
      else none) = (errorResponse requestId details e).errorCode ↔ LogsItsCode e := by
  unfold LogsItsCode
  cases hresponse : e.response with
  | none =>
    rw [errorResponse_statusCode _ _ hresponse, errorResponse_errorCode _ _ hresponse]
    exact iff_of_true rfl fun response h => by cases h
  | some response =>
    rw [errorResponse_of_response _ _ hresponse]
    by_cases hstatus : response.statusCode ≥ 400
    · rw [if_pos hstatus]
      constructor
      · rintro h _ ⟨⟩ -
        exact h.symm
      · exact fun h => (h response rfl hstatus).symm
    · rw [if_neg hstatus, Response.errorCode, if_neg hstatus]
      refine iff_of_true rfl ?_
      rintro _ ⟨⟩ h
      exact absurd h hstatus

/-- `handle_error` writes one row, with the status of its response. -/
theorem handleError_rows (hlogs : W.Logs) {a : Attempt} (hwrite : a.failed.succeeds = true)
    (s : RequestState) (e : Exn) :
    ∃ row, (handleError W s a e).1.rows = s.rows ++ [row] ∧
      (row.Describes (handleError W s a e).2 ↔ LogsItsCode e) := by
  unfold handleError
  dsimp only
  have hrows : (if e.response.isSome then s else s.ensureRequestId W).rows = s.rows := by
    split <;> rfl
  generalize (if e.response.isSome then s else s.ensureRequestId W) = s' at hrows ⊢
  obtain ⟨row, hrow, hstatus, hcode⟩ := writeRequestLog_rows hlogs hwrite s' _ _
  refine ⟨row, hrow.trans (by rw [hrows]), ?_⟩
  unfold LogVals.Describes
  rw [hstatus, hcode, errorCode_eq_iff]
  exact and_iff_right rfl

/-- Where rows are not written a request leaves none. -/
theorem serveRequest_rows_of_not (hlogs : ¬ W.Logs) (sessionUid : Option Nat) (a : Attempt)
    (rest : List Attempt) : (serveRequest W sessionUid a rest).1.rows = [] := by
  have hbefore := (Retry.measure_before_eq_iff (R := retrying W) (outcome W)
    (fun s => s.rows.length) (fun _ => 0)
    (fun s b (_ : b ∈ a :: rest) => congrArg List.length (leave_rows_of_not hlogs s b))
    (RequestState.initial sessionUid)).mpr fun _ _ => rfl
  have hs : ((retrying W).before (outcome W) (RequestState.initial sessionUid) a rest).rows = [] :=
    List.length_eq_zero_iff.mp hbefore
  unfold serveRequest
  rw [Retry.run_eq (determined W)]
  exact (finish_rows_of_not hlogs _ _).trans hs

/-- The last attempt adds one row, and nothing after it, exactly when it ends in one
response that the row describes. -/
theorem finish_rows (hlogs : W.Logs) {a : Attempt} (hanswered : a.answered.succeeds = true)
    (hfailed : a.failed.succeeds = true) (s : RequestState) :
    ∃ row added, ((retrying W).finish s a).1.rows = s.rows ++ row :: added ∧
      (added = [] ∧ row.Describes ((retrying W).finish s a).2 ↔ EndsTruthfully W a) := by
  unfold EndsTruthfully
  rcases serveAttempt_spec (W := W) s a with ⟨e, s', hs, ha, hrows⟩ | ⟨response, s', hs, ha, hrows⟩
  · obtain ⟨row, hrow, htrue⟩ := handleError_rows hlogs hfailed s' e
    refine ⟨row, [], ?_, ?_⟩
    · rw [Retry.finish_error (R := retrying W) hs, ← hrows]
      exact hrow
    · rw [Retry.finish_error (R := retrying W) hs, ha]
      exact (and_iff_right rfl).trans htrue
  · obtain ⟨row, hrow, hstatus, hcode⟩ := writeRequestLog_rows hlogs hanswered s' response none
    rw [ha]
    cases hflush : a.flush with
    | ok u =>
      have hs : serveAttempt W s a =
          (writeRequestLog W s' a.answered response none, .ok response) := by rw [hs, hflush]; rfl
      rw [Retry.finish_ok (R := retrying W) hs]
      refine ⟨row, [], by rw [hrow, hrows], ?_⟩
      unfold LogVals.Describes
      rw [hstatus, hcode]
      simp [eq_comm]
    | error e =>
      -- the flush fails after the row is committed, and `handle_error` adds another
      have hs : serveAttempt W s a =
          (writeRequestLog W s' a.answered response none, .error e) := by rw [hs, hflush]; rfl
      obtain ⟨row', hrow', -⟩ := handleError_rows hlogs hfailed
        (writeRequestLog W s' a.answered response none) e
      rw [Retry.finish_error (R := retrying W) hs]
      refine ⟨row, [row'], ?_, iff_of_false (fun h => by cases h.1) (fun h => by cases h.1)⟩
      rw [show (retrying W).giveUp = handleError W from rfl, hrow', hrow, hrows, List.append_assoc]
      rfl

/-- **One row per response.**  With log writes that go through, one row with the status and the
error code of the client's response is committed exactly when rows are written at all, every
attempt but the last fails before the end of `post_dispatch`, and the last one fails before it
with an exception that logs its code, or passes it, flushes and answers without an error
code. -/
theorem audited_once_iff (W : Serving) (sessionUid : Option Nat) (a : Attempt)
    (rest : List Attempt) (hwrites : WritesSucceed (a :: rest)) :
    AuditedOnce W sessionUid a rest ↔
      W.Logs ∧
      (∀ b ∈ (retrying W).earlier (outcome W) a rest, ∃ e, answer W b = .error e) ∧
      EndsTruthfully W ((retrying W).last (outcome W) a rest) := by
  by_cases hlogs : W.Logs
  · have hbefore := Retry.measure_before_eq_iff (R := retrying W) (outcome W)
      (fun s => s.rows.length) (answeredRows W)
      (fun s b hb => leave_rows hlogs (hwrites b hb).1 s) (RequestState.initial sessionUid)
    unfold AuditedOnce serveRequest
    rw [Retry.run_eq (determined W)]
    generalize (retrying W).before (outcome W) (RequestState.initial sessionUid) a rest = s
      at hbefore ⊢
    -- the earlier attempts left no row if each of them failed before the end of `post_dispatch`
    have hnone : s.rows = [] ↔
        ∀ b ∈ (retrying W).earlier (outcome W) a rest, ∃ e, answer W b = .error e := by
      simp only [← answeredRows_eq_zero_iff]
      exact List.length_eq_zero_iff.symm.trans hbefore
    obtain ⟨hanswered, hfailed⟩ := hwrites _ (Retry.last_mem (retrying W) (outcome W) a rest)
    obtain ⟨row, added, hrows, htrue⟩ := finish_rows hlogs hanswered hfailed s
    rw [hrows, ← htrue, ← hnone]
    constructor
    · rintro ⟨row', hrow', hdescribes⟩
      rcases List.append_eq_singleton_iff.mp hrow' with ⟨hs, hadded⟩ | ⟨-, hadded⟩
      · cases hadded
        exact ⟨hlogs, hs, rfl, hdescribes⟩
      · cases hadded
    · rintro ⟨-, hs, rfl, hdescribes⟩
      exact ⟨row, by rw [hs]; rfl, hdescribes⟩
  · refine iff_of_false ?_ fun h => hlogs h.1
    rintro ⟨row, hrow, -⟩
    rw [serveRequest_rows_of_not hlogs] at hrow
    cases hrow

theorem length_of_auditedOnce {sessionUid : Option Nat} {a : Attempt} {rest : List Attempt}
    (h : AuditedOnce W sessionUid a rest) :
    (serveRequest W sessionUid a rest).1.rows.length = 1 := by
  obtain ⟨row, hrow, -⟩ := h
  rw [hrow]
  rfl

/-! ## Attempts that conflict -/

def serializationFailure : Exn := .python "SerializationFailure"

def sampleServing : Serving where
  site := sampleSite
  route := { sampleRoute with auth := .core "public" }
  pathArgs := []
  request := keyedRequest
  hasDb := true
  readonly := false
  currentTest := false
  startTime := 0
  uuid := "00000000-0000-4000-8000-000000000000"
  formatTraceback _ := "Traceback"
  retried _ e :=
    match e with
    | .python type => type == "SerializationFailure"
    | _ => false

/-- An attempt whose endpoint and flush end as given. -/
def attemptOf (endpoint : Except Exn Response) (flush : Except Exn Unit) : Attempt where
  db := archivedDatabase
  endpoint _ := endpoint
  corePostDispatch _ := .ok ()
  flush := flush
  answered := ⟨5, none, true⟩
  failed := ⟨6, none, true⟩
  exposeTraceback := none

def done : Response := makeJsonResponse (.obj []) [] 200

theorem attemptOf_writesSucceed (endpoint endpoint' : Except Exn Response)
    (flush flush' : Except Exn Unit) :
    WritesSucceed [attemptOf endpoint flush, attemptOf endpoint' flush'] := by
  intro b hb
  simp only [List.mem_cons, List.not_mem_nil, or_false] at hb
  rcases hb with rfl | rfl <;> exact ⟨rfl, rfl⟩

/-- An endpoint that conflicts is run again, and leaves its row to the attempt that answers. -/
theorem auditedOnce_endpointConflict :
    AuditedOnce sampleServing none (attemptOf (.error serializationFailure) (.ok ()))
      [attemptOf (.ok done) (.ok ())] := by
  refine (audited_once_iff _ _ _ _ (attemptOf_writesSucceed _ _ _ _)).mpr
    ⟨⟨rfl, rfl⟩, ?_, rfl, rfl⟩
  intro b hb
  exact ⟨serializationFailure, by obtain rfl := List.mem_singleton.mp hb; rfl⟩

/-- A flush that conflicts leaves the row of a response nobody receives, and so does a flush
that fails for good in the last attempt. -/
theorem not_auditedOnce :
    (WritesSucceed [attemptOf (.ok done) (.error serializationFailure),
        attemptOf (.ok done) (.ok ())] ∧
      ¬ AuditedOnce sampleServing none (attemptOf (.ok done) (.error serializationFailure))
          [attemptOf (.ok done) (.ok ())]) ∧
    WritesSucceed [attemptOf (.error serializationFailure) (.ok ()),
        attemptOf (.ok done) (.error (.python "DataError"))] ∧
      ¬ AuditedOnce sampleServing none (attemptOf (.error serializationFailure) (.ok ()))
          [attemptOf (.ok done) (.error (.python "DataError"))] := by
  refine ⟨⟨attemptOf_writesSucceed _ _ _ _, fun h => ?_⟩, attemptOf_writesSucceed _ _ _ _,
    fun h => ?_⟩
  · exact absurd (length_of_auditedOnce h) (by decide)
  · exact absurd (length_of_auditedOnce h) (by decide)

end SsiRest.RequestLog
