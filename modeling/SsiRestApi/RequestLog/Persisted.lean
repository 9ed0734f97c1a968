import SsiRestApi.RequestLog.Audit

/-!
# The bodies a request persists

Whatever its attempts come to, the rows of one request hold one body: that of the
parameters of its endpoint, if an attempt got as far as merging them.

    every row has the body of finalParams, or none       (requestBody_of_mem, storedBody_of_mem)
-/

namespace SsiRest.RequestLog

open Py Tx

variable {W : Serving}

/-- What an attempt calls the endpoint with. -/
def Serving.call (W : Serving) (a : Attempt) : Except Exn Call :=
  serve W.site a.db W.route W.pathArgs W.request

/-- `request.params` after the last attempt. -/
def finalParams (W : Serving) (params : Kw) (a : Attempt) : List Attempt → Kw
  | [] =>
    match W.call a with
    | .ok call => call.params
    | .error _ => params
  | next :: rest =>
    match W.call a with
    | .ok call => call.params
    | .error e => if W.retried a e then finalParams W params next rest else params

/-- `ssi_rest_api.log_body` is enabled in every write of the attempt. -/
def Attempt.LogsBody (a : Attempt) : Prop :=
  a.answered.logBody = some "True" ∧ a.failed.logBody = some "True"

/-- The body of a row that is written with the parameter enabled. -/
def loggedBody (params : Kw) : Option String := redactedRequestBody (some "True") params

/-- The row was written with one of these values of `ssi_rest_api.log_body`. -/
def HasBody (B : Option String → Prop) (params : Kw) (row : LogVals) : Prop :=
  ∃ logBody, B logBody ∧ row.requestBody = redactedRequestBody logBody params

/-- So are the rows of the attempt. -/
def Attempt.LogsWith (B : Option String → Prop) (a : Attempt) : Prop :=
  B a.answered.logBody ∧ B a.failed.logBody

/-- Once parameters are merged, later attempts merge the same. -/
theorem finalParams_merged {params : Kw} (h : mergeParams W.request W.pathArgs = .ok params)
    (a : Attempt) (rest : List Attempt) : finalParams W params a rest = params := by
  induction rest generalizing a with
  | nil =>
    unfold finalParams
    split
    · next call hcall => exact Except.ok.inj ((mergeParams_of_serve hcall).symm.trans h)
    · rfl
  | cons next rest ih =>
    unfold finalParams
    split
    · next call hcall => exact Except.ok.inj ((mergeParams_of_serve hcall).symm.trans h)
    · split
      · exact ih next
      · rfl

/-- Parameters at the end are those of a call, if an attempt came to one. -/
theorem finalParams_cases (a : Attempt) (rest : List Attempt) :
    finalParams W [] a rest = [] ∨
      ∃ b call, W.call b = .ok call ∧ finalParams W [] a rest = call.params := by
  induction rest generalizing a with
  | nil =>
    unfold finalParams
    cases hcall : W.call a with
    | error e => exact Or.inl rfl
    | ok call => exact Or.inr ⟨a, call, hcall, rfl⟩
  | cons next rest ih =>
    unfold finalParams
    cases hcall : W.call a with
    | error e =>
      dsimp only
      split
      · exact ih next
      · exact Or.inl rfl
    | ok call => exact Or.inr ⟨a, call, hcall, rfl⟩

theorem mem_writeRequestLog {s : RequestState} {write : LogWrite} {response : Response}
    {errorCode : Option String} {row : LogVals}
    (h : row ∈ (writeRequestLog W s write response errorCode).rows) :
    row ∈ s.rows ∨ row.requestBody = redactedRequestBody write.logBody s.params := by
  unfold writeRequestLog at h
  split at h
  · exact Or.inl h
  · split at h
    · exact Or.inl h
    · dsimp only at h
      split at h
      · rcases List.mem_append.mp h with h | h
        · exact Or.inl h
        · obtain rfl := List.mem_singleton.mp h
          exact Or.inr rfl
      · exact Or.inl h

theorem writeRequestLog_params (s : RequestState) (write : LogWrite) (response : Response)
    (errorCode : Option String) :
    (writeRequestLog W s write response errorCode).params = s.params := by
  unfold writeRequestLog
  split
  · rfl
  · split
    · rfl
    · dsimp only
      split <;> rfl

/-- An attempt that does not reach the endpoint leaves rows and parameters alone; one that does
sets the parameters, and its row has their body. -/
theorem serveAttempt_params (s : RequestState) (a : Attempt) :
    (∃ e, W.call a = .error e ∧ (serveAttempt W s a).2 = .error e ∧
      (serveAttempt W s a).1.rows = s.rows ∧ (serveAttempt W s a).1.params = s.params) ∨
    ∃ call, W.call a = .ok call ∧ (serveAttempt W s a).1.params = call.params ∧
      ∀ row ∈ (serveAttempt W s a).1.rows,
        row ∈ s.rows ∨ row.requestBody = redactedRequestBody a.answered.logBody call.params := by
  rcases serveAttempt_cases s a with ⟨e, s', hcall, hattempt, -, hrows, hparams⟩ |
    ⟨call, s', hcall, hrows, hparams, ⟨e, hattempt, -⟩ | ⟨response, hattempt, -⟩⟩
  · left
    rw [hattempt]
    exact ⟨e, hcall, rfl, hrows, hparams⟩
  · right
    rw [hattempt]
    exact ⟨call, hcall, hparams, fun row hrow => Or.inl (hrows ▸ hrow)⟩
  · right
    rw [hattempt]
    refine ⟨call, hcall, (writeRequestLog_params _ _ _ _).trans hparams, fun row hrow => ?_⟩
    rw [← hrows, ← hparams]
    exact mem_writeRequestLog hrow

theorem mem_handleError {s : RequestState} {a : Attempt} {e : Exn} {row : LogVals}
    (h : row ∈ (handleError W s a e).1.rows) :
    row ∈ s.rows ∨ row.requestBody = redactedRequestBody a.failed.logBody s.params := by
  unfold handleError at h
  dsimp only at h
  rcases mem_writeRequestLog h with h | h
  · left
    split at h <;> exact h
  · right
    rw [h]
    split <;> rfl

variable {B : Option String → Prop}

/-- The row of an answered failure has the body of the parameters, as the rows before it. -/
theorem handleError_requestBody {a : Attempt} (hlogs : a.LogsWith B) {s : RequestState}
    {params : Kw} (hparams : s.params = params) (hrows : ∀ row ∈ s.rows, HasBody B params row)
    (e : Exn) : ∀ row ∈ (handleError W s a e).1.rows, HasBody B params row := by
  intro row hrow
  rcases mem_handleError hrow with hold | hbody
  · exact hrows row hold
  · exact ⟨_, hlogs.2, hparams ▸ hbody⟩

/-- The rows after an attempt and, where it fails for good, after `handle_error`. -/
theorem finish_requestBody {a : Attempt} (hlogs : a.LogsWith B) {s : RequestState}
    (hrows : ∀ row ∈ s.rows, HasBody B (finalParams W s.params a []) row) :
    ∀ row ∈ ((retrying W).finish s a).1.rows, HasBody B (finalParams W s.params a []) row := by
  have hleave : (∀ row ∈ (serveAttempt W s a).1.rows,
      HasBody B (finalParams W s.params a []) row) ∧
        (serveAttempt W s a).1.params = finalParams W s.params a [] := by
    rcases serveAttempt_params (W := W) s a with ⟨e, hcall, -, hsame, hparams⟩ |
      ⟨call, hcall, hparams, hnew⟩
    · refine ⟨fun row hrow => hrows row (hsame ▸ hrow), ?_⟩
      rw [hparams, finalParams, hcall]
    · have hfinal : finalParams W s.params a [] = call.params := by rw [finalParams, hcall]
      refine ⟨fun row hrow => ?_, by rw [hparams, hfinal]⟩
      rcases hnew row hrow with hold | hbody
      · exact hrows row hold
      · exact ⟨_, hlogs.1, hfinal ▸ hbody⟩
  intro row hrow
  rcases hattempt : serveAttempt W s a with ⟨s', r⟩
  rw [hattempt] at hleave
  cases r with
  | ok response =>
    rw [Retry.finish_ok (R := retrying W) hattempt] at hrow
    exact hleave.1 row hrow
  | error e =>
    rw [Retry.finish_error (R := retrying W) hattempt] at hrow
    exact handleError_requestBody hlogs hleave.2 hleave.1 e row hrow

theorem run_requestBody {a : Attempt} {rest : List Attempt}
    (hlogs : ∀ b ∈ a :: rest, b.LogsWith B) {s : RequestState}
    (hrows : ∀ row ∈ s.rows, HasBody B (finalParams W s.params a rest) row) :
    ∀ row ∈ ((retrying W).run s a rest).1.rows, HasBody B (finalParams W s.params a rest) row := by
  induction rest generalizing s a with
  | nil => exact finish_requestBody (hlogs a List.mem_cons_self) hrows
  | cons next rest ih =>
    have ha := hlogs a List.mem_cons_self
    have hrest : ∀ b ∈ next :: rest, b.LogsWith B := fun b hb =>
      hlogs b (List.mem_cons_of_mem _ hb)
    rcases hattempt : serveAttempt W s a with ⟨s', r⟩
    rcases serveAttempt_params (W := W) s a with ⟨e, hcall, hfail, hsame, hparams⟩ |
      ⟨call, hcall, hparams, hnew⟩
    · -- the endpoint was not reached
      rw [hattempt] at hfail hsame hparams
      dsimp only at hfail hsame hparams
      subst hfail
      have hfinal : finalParams W s.params a (next :: rest) =
          if W.retried a e then finalParams W s.params next rest else s.params := by
        rw [finalParams, hcall]
      rw [hfinal] at hrows ⊢
      rw [Retry.run_error (R := retrying W) hattempt]
      by_cases hretried : W.retried a e = true
      · rw [if_pos hretried] at hrows ⊢
        rw [show (retrying W).retried a e = true from hretried, if_pos rfl]
        rw [← hparams] at hrows ⊢
        exact ih hrest fun row hrow => hrows row (hsame ▸ hrow)
      · rw [if_neg hretried] at hrows ⊢
        rw [if_neg (show ¬ (retrying W).retried a e = true from hretried)]
        exact handleError_requestBody ha hparams (fun row hrow => hrows row (hsame ▸ hrow)) e
    · -- the parameters are merged, and stay as they are
      rw [hattempt] at hparams hnew
      dsimp only at hparams hnew
      have hfinal : finalParams W s.params a (next :: rest) = call.params := by
        rw [finalParams, hcall]
      rw [hfinal] at hrows ⊢
      have hleave : ∀ row ∈ s'.rows, HasBody B call.params row := by
        intro row hrow
        rcases hnew row hrow with hold | hbody
        · exact hrows row hold
        · exact ⟨_, ha.1, hbody⟩
      have hstay : finalParams W s'.params next rest = call.params := by
        rw [hparams]
        exact finalParams_merged (mergeParams_of_serve hcall) next rest
      cases r with
      | ok response =>
        rw [Retry.run_ok (R := retrying W) hattempt]
        exact hleave
      | error e =>
        rw [Retry.run_error (R := retrying W) hattempt]
        split
        · rw [← hstay] at hleave ⊢
          exact ih hrest hleave
        · exact handleError_requestBody ha hparams hleave e

/-- The rows of a request hold the body of its parameters, however it ends. -/
theorem requestBody_of_mem {sessionUid : Option Nat} {a : Attempt} {rest : List Attempt}
    (hlogs : ∀ b ∈ a :: rest, b.LogsBody) {row : LogVals}
    (hrow : row ∈ (serveRequest W sessionUid a rest).1.rows) :
    row.requestBody = loggedBody (finalParams W [] a rest) := by
  obtain ⟨logBody, rfl, hbody⟩ := run_requestBody (B := fun logBody => logBody = some "True")
    (s := RequestState.initial sessionUid) hlogs (fun _ h => by cases h) row hrow
  exact hbody

/-- A body that a row has is that of the parameters. -/
theorem storedBody_of_mem {sessionUid : Option Nat} {a : Attempt} {rest : List Attempt}
    {row : LogVals} (hrow : row ∈ (serveRequest W sessionUid a rest).1.rows) {body : String}
    (hbody : row.requestBody = some body) : loggedBody (finalParams W [] a rest) = some body := by
  obtain ⟨logBody, -, hlogged⟩ := run_requestBody (B := fun _ => True)
    (s := RequestState.initial sessionUid) (fun _ _ => ⟨trivial, trivial⟩) (fun _ h => by cases h)
    row hrow
  rw [hbody] at hlogged
  by_cases htrue : logBody = some "True"
  · rw [htrue] at hlogged
    exact hlogged.symm
  · unfold redactedRequestBody at hlogged
    rw [if_pos htrue] at hlogged
    cases hlogged

end SsiRest.RequestLog
