import SsiRestApi.Lib.JsonCut
import SsiRestApi.RequestLog.Persisted

/-!
# Reading a stored body back

A row of the log stores the redacted parameters of its request as JSON, cut to
`_MAX_BODY_CHARS`.  What is stored reads back as the redacted parameters when nothing was cut,
and a cut text reads as nothing at all, never as something else (storedBody_reads).
-/

namespace SsiRest.RequestLog

open Py Tx

/-! ## Redaction keeps values readable -/

mutual

theorem readable_redact (depth : Nat) : ∀ v : Json, v.Readable → (redact depth v).Readable
  | .obj fields, h => by
    rw [redact]
    split
    · trivial
    · exact readableFields_redactFields (depth + 1) fields h
  | .arr items, h => by
    rw [redact]
    split
    · trivial
    · exact readableItems_redactItems (depth + 1) items h
  | .null, h | .bool _, h | .int _, h | .float _, h | .str _, h | .foreign _, h => by
    unfold redact
    split
    · trivial
    · exact h

theorem readableItems_redactItems (depth : Nat) : ∀ items : List Json,
    Json.ReadableItems items → Json.ReadableItems (redactItems depth items)
  | [], _ => trivial
  | v :: items, h => ⟨readable_redact depth v h.1, readableItems_redactItems depth items h.2⟩

theorem readableFields_redactFields (depth : Nat) : ∀ fields : Kw,
    Json.ReadableFields fields → Json.ReadableFields (redactFields depth fields)
  | [], _ => trivial
  | (key, v) :: fields, h => by
    refine ⟨?_, readableFields_redactFields depth fields h.2⟩
    split
    · trivial
    · exact readable_redact depth v h.1

end

/-- At the top a dictionary stays one. -/
theorem redact_zero_obj (fields : Kw) : redact 0 (.obj fields) = .obj (redactFields 1 fields) := by
  rw [redact, if_neg (by decide)]

/-! ## Cut texts -/

theorem codePoints_slice (s : String) (n : Nat) :
    codePoints (slice s n) = (codePoints s).take n := by
  unfold codePoints slice
  rw [String.toList_ofList, List.map_take]

theorem length_codePoints (s : String) : (codePoints s).length = s.length := by
  unfold codePoints
  rw [List.length_map, String.length_toList]

/-- The text of an object begins and ends with its braces. -/
theorem codePoints_dumps_obj {fields : Kw} {text : String}
    (h : (Json.obj fields).dumps true = some text) :
    ∃ inside, codePoints text = 0x7b :: (inside ++ [0x7d]) := by
  obtain ⟨texts, -, rfl⟩ := Option.map_eq_some_iff.mp h
  have hbraces := JsonText.codePoints_bracketed (Py.join ", " texts) "\x7b" "\x7d" rfl rfl []
  rw [List.append_nil] at hbraces
  exact ⟨_, hbraces⟩

/-- Of the text of an object the first characters are read only where they are all of it. -/
theorem decode_slice_dumps {fields : Kw} {text : String}
    (h : (Json.obj fields).dumps true = some text) (hfields : (Json.obj fields).Readable)
    {n : Nat} (hn : 0 < n) :
    JsonText.decode (codePoints (slice text n)) =
      if text.length ≤ n then some (Json.obj fields).toDoc else none := by
  have hwhole := JsonText.decode_dumps h hfields
  rw [codePoints_slice]
  split
  · next hle =>
    rw [List.take_of_length_le (by rwa [length_codePoints]), hwhole]
  · next hlong =>
    obtain ⟨inside, htext⟩ := codePoints_dumps_obj h
    cases hcut : JsonText.decode ((codePoints text).take n) with
    | none => rfl
    | some d =>
      have hhead : ((codePoints text).take n).head? = some 0x7b := by
        rw [List.head?_take, if_neg (by omega), htext]
        rfl
      -- the brace that closes the object is cut away
      have hrest : JsonText.skipBlanks ((codePoints text).drop n) ≠ [] := by
        intro hnil
        have hblank := List.dropWhile_eq_nil_iff.mp hnil
        have hlast : ((codePoints text).drop n).getLast? = some 0x7d := by
          rw [List.getLast?_drop, if_neg (by rw [length_codePoints]; omega), htext,
            ← List.cons_append, List.getLast?_append]
          rfl
        exact absurd (hblank 0x7d (List.mem_of_getLast? hlast)) (by decide)
      have hnone := JsonText.decode_append hhead hcut hrest
      rw [List.take_append_drop, hwhole] at hnone
      cases hnone

/-! ## Rows -/

variable {W : Serving}

theorem readable_finalParams
    (hparams : ∀ params, mergeParams W.request W.pathArgs = .ok params →
      (Json.obj params).Readable) (a : Attempt) (rest : List Attempt) :
    (Json.obj (finalParams W [] a rest)).Readable := by
  rcases finalParams_cases (W := W) a rest with hnil | ⟨b, call, hcall, hfinal⟩
  · rw [hnil]
    trivial
  · rw [hfinal]
    exact hparams _ (mergeParams_of_serve hcall)

/-- **A stored body reads back or is cut.**  However a request goes, the body each of its rows
stores reads as the redacted parameters when their text fits, and as nothing otherwise. -/
theorem storedBody_reads (sessionUid : Option Nat) (a : Attempt) (rest : List Attempt)
    (hparams : ∀ params, mergeParams W.request W.pathArgs = .ok params →
      (Json.obj params).Readable)
    {row : LogVals} (hrow : row ∈ (serveRequest W sessionUid a rest).1.rows) {body : String}
    (hbody : row.requestBody = some body) :
    ∃ text, (redact 0 (.obj (finalParams W [] a rest))).dumps true = some text ∧
      body = slice text maxBodyChars ∧
      JsonText.decode (codePoints body) =
        if text.length ≤ maxBodyChars then
          some (redact 0 (.obj (finalParams W [] a rest))).toDoc
        else none := by
  have hreadable := readable_finalParams hparams a rest
  have hbody := storedBody_of_mem hrow hbody
  unfold loggedBody redactedRequestBody at hbody
  rw [if_neg (fun h => h rfl)] at hbody
  split at hbody
  · cases hbody
  · obtain ⟨text, htext, rfl⟩ := Option.map_eq_some_iff.mp hbody
    have hredacted := readable_redact 0 _ hreadable
    refine ⟨text, htext, rfl, ?_⟩
    rw [redact_zero_obj] at htext hredacted ⊢
    exact decode_slice_dumps htext hredacted (by decide)

/-! ## One parameter -/

/-- No character of a text is lost where it is quoted. -/
theorem length_le_quote (ensureAscii : Bool) (s : String) :
    s.length ≤ (Json.quote ensureAscii s).length := by
  have hescape : ∀ c, 1 ≤ (Json.escapeChar ensureAscii c).length := by
    intro c
    unfold Json.escapeChar
    split
    · simp
    · split
      · simp
      · split
        iterate 5 simp
        split_ifs <;> simp [Json.escapeUnit]
  have hchars : ∀ cs : List Char, cs.length ≤ (cs.flatMap (Json.escapeChar ensureAscii)).length := by
    intro cs
    induction cs with
    | nil => simp
    | cons c cs ih =>
      have := hescape c
      rw [List.flatMap_cons, List.length_append, List.length_cons]
      omega
  have h := hchars s.toList
  unfold Json.quote
  rw [String.length_ofList, ← String.length_toList]
  simp only [List.length_cons, List.length_append]
  omega

/-- A request for a model, with bodies logged. -/
def loggedServing (model : String) : Serving :=
  { sampleServing with pathArgs := [("model", .str model)] }

def loggedAttempt : Attempt :=
  { attemptOf (.ok done) (.ok ()) with
    answered := ⟨5, some "True", true⟩
    failed := ⟨6, some "True", true⟩ }

/-- The text of its parameters. -/
def modelText (model : String) : String :=
  "\x7b" ++ (Json.quote true "model" ++ ": " ++ Json.quote true model) ++ "\x7d"

theorem dumps_model (model : String) :
    (redact 0 (.obj [("model", .str model)])).dumps true = some (modelText model) := by
  have hplain : redactFields 1 [("model", .str model)] = [("model", .str model)] := by
    have hkey : isSensitive "model" = false := by decide
    simp [redactFields, hkey, redact, maxRedactDepth]
  rw [redact_zero_obj, hplain]
  have hjoin : ∀ text : String, join ", " [text] = text := by
    intro text
    simp [join]
  simp only [Json.dumps, Json.dumpsFields, Option.map_some, hjoin]
  rfl

/-- A name that leaves no room for the rest of the text. -/
def longModel : String := String.ofList (List.replicate maxBodyChars 'm')

theorem length_modelText_longModel : maxBodyChars < (modelText longModel).length := by
  have hquote := length_le_quote true longModel
  have hlength : longModel.length = maxBodyChars := by
    unfold longModel
    rw [String.length_ofList, List.length_replicate]
  have hbrace : "\x7b".length = 1 := rfl
  unfold modelText
  simp only [String.length_append]
  omega

theorem storedBody_reads_model :
    (∃ row ∈ (serveRequest (loggedServing "res.partner") none loggedAttempt []).1.rows,
      ∃ body, row.requestBody = some body ∧
        JsonText.decode (codePoints body) =
          some (Json.obj [("model", .str "res.partner")]).toDoc) ∧
    ∃ row ∈ (serveRequest (loggedServing longModel) none loggedAttempt []).1.rows,
      ∃ body, row.requestBody = some body ∧ JsonText.decode (codePoints body) = none := by
  have hreads : ∀ model : String,
      ∃ row ∈ (serveRequest (loggedServing model) none loggedAttempt []).1.rows,
        ∃ body, row.requestBody = some body ∧ JsonText.decode (codePoints body) =
          if (modelText model).length ≤ maxBodyChars then
            some (Json.obj [("model", .str model)]).toDoc
          else none := by
    intro model
    have hmerged : mergeParams (loggedServing model).request (loggedServing model).pathArgs =
        .ok [("model", .str model)] := rfl
    have hfinal : finalParams (loggedServing model) [] loggedAttempt [] =
        [("model", .str model)] := rfl
    have hlogs : ∀ b ∈ [loggedAttempt], b.LogsBody := by
      intro b hb
      obtain rfl := List.mem_singleton.mp hb
      exact ⟨rfl, rfl⟩
    have hrow : ∃ row, (serveRequest (loggedServing model) none loggedAttempt []).1.rows = [row] :=
      ⟨_, rfl⟩
    obtain ⟨row, hrow⟩ := hrow
    have hmem : row ∈ (serveRequest (loggedServing model) none loggedAttempt []).1.rows := by
      rw [hrow]
      exact List.mem_cons_self
    have hbody : row.requestBody = some (slice (modelText model) maxBodyChars) := by
      rw [requestBody_of_mem hlogs hmem, hfinal]
      unfold loggedBody redactedRequestBody
      rw [if_neg (fun h => h rfl), List.isEmpty_cons, if_neg Bool.false_ne_true, dumps_model]
      rfl
    obtain ⟨text, htext, -, hread⟩ := storedBody_reads none loggedAttempt []
      (fun params h => by
        obtain rfl := Except.ok.inj (hmerged.symm.trans h)
        exact ⟨trivial, trivial⟩) hmem hbody
    rw [hfinal] at htext hread
    rw [dumps_model] at htext
    obtain rfl : modelText model = text := Option.some.inj htext
    exact ⟨row, hmem, _, hbody, hread⟩
  constructor
  · obtain ⟨row, hmem, body, hbody, hread⟩ := hreads "res.partner"
    rw [if_pos (by decide)] at hread
    exact ⟨row, hmem, body, hbody, hread⟩
  · obtain ⟨row, hmem, body, hbody, hread⟩ := hreads longModel
    rw [if_neg (Nat.not_le.mpr length_modelText_longModel)] at hread
    exact ⟨row, hmem, body, hbody, hread⟩

end SsiRest.RequestLog
