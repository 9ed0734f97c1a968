import SsiRestApi.RequestLog.Variants

/-!
# Credentials in the request log

The redactor replaces the values of the keys it knows.  Of the parameters the token
and revoke endpoints read credentials from it knows `client_secret`, `refresh_token`
and `token`, and it does not know `code` and `code_verifier`.

    rows do not depend on credentials ↔ no row can show a code     (credentials_logged_iff)
-/

namespace SsiRest.RequestLog

open Py Tx

/-- A parameter the endpoints take a credential from and the redactor does not know. -/
def leaks (key : String) : Bool := credentialParams.contains key && !isSensitive key

theorem mem_credentialParams_of_leaks {key : String} (h : leaks key = true) :
    key ∈ credentialParams :=
  List.contains_iff_mem.mp ((Bool.and_eq_true _ _).mp h).1

theorem isSensitive_of_leaks {key : String} (h : leaks key = true) : isSensitive key = false := by
  have hunknown := ((Bool.and_eq_true _ _).mp h).2
  simpa using hunknown

/-! ## The text of a body -/

/-- A parameter as the log keeps it. -/
def loggedField (field : String × Json) : String × Json :=
  (field.1, if isSensitive field.1 then redacted else redact 1 field.2)

def loggedText (field : String × Json) : Option String := Json.fieldText true (loggedField field)

/-- Every parameter can be written. -/
def Written (params : Kw) : Prop := ∀ field ∈ params, (loggedText field).isSome = true

instance (params : Kw) : Decidable (Written params) :=
  inferInstanceAs (Decidable (∀ field ∈ params, (loggedText field).isSome = true))

/-- What is written ahead of the value of a key. -/
def ahead (before : Kw) (key : String) : List Char :=
  '{' :: (before.flatMap fun field => ((loggedText field).getD "").toList ++ [',', ' ']) ++
    (Json.quote true key ++ ": ").toList

theorem redactFields_eq_map (depth : Nat) (kw : Kw) : redactFields depth kw =
    kw.map fun field => (field.1, if isSensitive field.1 then redacted else redact depth field.2) := by
  induction kw with
  | nil => rfl
  | cons field kw ih =>
    obtain ⟨key, v⟩ := field
    rw [redactFields, ih, List.map_cons]

/-- A body with parameters is the text of its fields, cut. -/
theorem loggedBody_eq {params : Kw} (hne : params ≠ []) :
    loggedBody params = (Json.dumpsFields true (params.map loggedField)).map fun texts =>
      slice ("\x7b" ++ join ", " texts ++ "\x7d") maxBodyChars := by
  unfold loggedBody redactedRequestBody
  rw [if_neg (not_not_intro rfl), List.isEmpty_eq_false_iff.mpr hne, if_neg Bool.false_ne_true,
    redact, if_neg (by decide), redactFields_eq_map, Json.dumps, Option.map_map]
  rfl

/-- A body with a parameter that cannot be written is not kept. -/
theorem loggedBody_of_not_written {params : Kw} (h : ¬ Written params) :
    loggedBody params = none := by
  obtain ⟨field, hfield, hnone⟩ : ∃ field ∈ params, ¬ (loggedText field).isSome = true := by
    simpa [Written] using h
  rw [loggedBody_eq (List.ne_nil_of_mem hfield)]
  cases hdumps : Json.dumpsFields true (params.map loggedField) with
  | none => rfl
  | some texts =>
    have hmem : loggedText field ∈ texts.map some := by
      rw [← Json.dumpsFields_eq_some_iff.mp hdumps, List.map_map]
      exact List.mem_map_of_mem hfield
    obtain ⟨text, -, htext⟩ := List.mem_map.mp hmem
    exact absurd (by rw [← htext]; rfl) hnone

/-- Around the value of a key, the text of a body with the parameters before it. -/
theorem loggedBody_split {before after : Kw} {key : String} {v : Json}
    (h : Written (before ++ (key, v) :: after)) :
    ∃ text rest, Json.dumps true (loggedField (key, v)).2 = some text ∧
      loggedBody (before ++ (key, v) :: after) =
        some (String.ofList ((ahead before key ++ (text.toList ++ rest)).take maxBodyChars)) := by
  have hwritten : ∀ kw : Kw, Written kw →
      kw.map loggedText = (kw.map fun field => (loggedText field).getD "").map some := by
    intro kw hkw
    rw [List.map_map]
    refine List.map_congr_left fun field hfield => ?_
    obtain ⟨text, htext⟩ := Option.isSome_iff_exists.mp (hkw field hfield)
    rw [Function.comp_apply, htext]
    rfl
  have hv : (loggedText (key, v)).isSome = true := h _ (by simp)
  obtain ⟨text, htext⟩ : ∃ text, Json.dumps true (loggedField (key, v)).2 = some text := by
    unfold loggedText Json.fieldText at hv
    rw [Option.isSome_map] at hv
    exact Option.isSome_iff_exists.mp hv
  have hfield : (loggedText (key, v)).getD "" = Json.quote true key ++ ": " ++ text := by
    unfold loggedText Json.fieldText
    rw [htext]
    rfl
  refine ⟨text, (after.flatMap fun field => ", ".toList ++ ((loggedText field).getD "").toList) ++
    ['}'], htext, ?_⟩
  have hdumps := Json.dumpsFields_eq_some_iff.mpr
    ((List.map_map (f := loggedField)).trans (hwritten _ h))
  rw [loggedBody_eq (by simp), hdumps, Option.map_some, List.map_append, List.map_cons, hfield,
    slice, String.toList_append, String.toList_append, toList_join_append_cons]
  simp [ahead, List.flatMap_map]

/-! ## Related parameters -/

/-- The parameter is a field of the JSON body, not of a form or the query. -/
def FromJson (q : HttpRequest) (key : String) : Prop :=
  q.mimetype ∉ formMimetypes ∧
    ∃ fields, jsonFields q = .ok fields ∧ (fields.lookup key).isSome = true

/-- The log shows a code: every parameter can be written, and the value of the first unknown
credential begins within the part of the text that is kept.  Of a text that part holds more than
the opening quote. -/
def Exposes (q : HttpRequest) (params : Kw) : Prop :=
  Written params ∧ ∃ before key v after, params = before ++ (key, v) :: after ∧
    (∀ field ∈ before, leaks field.1 = false) ∧ leaks key = true ∧
    ((ahead before key).length + 1 < maxBodyChars ∨
      (ahead before key).length + 1 = maxBodyChars ∧ FromJson q key)

theorem loggedField_eq {key : String} {v v' : Json} (h : ParamVaries key v v')
    (hkey : leaks key = false) : loggedField (key, v) = loggedField (key, v') := by
  unfold loggedField
  by_cases hsensitive : isSensitive key = true
  · simp [hsensitive]
  · have hmem : key ∉ credentialParams := by
      intro hmem
      unfold leaks at hkey
      rw [List.contains_iff_mem.mpr hmem, Bool.not_eq_true _ |>.mp hsensitive] at hkey
      cases hkey
    rw [h.eq hmem]

theorem loggedText_isSome_iff {key : String} {v v' : Json} (h : ParamVaries key v v') :
    (loggedText (key, v)).isSome = true ↔ (loggedText (key, v')).isSome = true := by
  unfold loggedText Json.fieldText loggedField
  by_cases hsensitive : isSensitive key = true
  · simp [hsensitive]
  · simpa [hsensitive, Writable] using h.writable_iff

theorem written_iff {params params' : Kw} (h : Kw.Related ParamVaries params params') :
    Written params ↔ Written params' := by
  induction h with
  | nil => exact Iff.rfl
  | cons hf _ ih =>
    rename_i field field' _ _ _
    obtain ⟨key, v⟩ := field
    obtain ⟨key', v'⟩ := field'
    obtain ⟨rfl, hvaries⟩ := hf
    unfold Written at ih ⊢
    rw [List.forall_mem_cons, List.forall_mem_cons, ih, loggedText_isSome_iff hvaries]

/-- Parameters split at their first unknown credential, if they have one. -/
theorem split_leaks (params : Kw) : (∀ field ∈ params, leaks field.1 = false) ∨
    ∃ before key v after, params = before ++ (key, v) :: after ∧
      (∀ field ∈ before, leaks field.1 = false) ∧ leaks key = true := by
  induction params with
  | nil => exact Or.inl fun _ h => by cases h
  | cons field params ih =>
    obtain ⟨key, v⟩ := field
    by_cases hkey : leaks key = true
    · exact Or.inr ⟨[], key, v, params, rfl, fun _ h => (by cases h), hkey⟩
    · have hkey : leaks key = false := Bool.not_eq_true _ |>.mp hkey
      rcases ih with hnone | ⟨before, key', v', after, rfl, hbefore, hkey'⟩
      · exact Or.inl (List.forall_mem_cons.mpr ⟨hkey, hnone⟩)
      · exact Or.inr ⟨(key, v) :: before, key', v', after, rfl,
          List.forall_mem_cons.mpr ⟨hkey, hbefore⟩, hkey'⟩

/-- Without unknown credentials the log keeps the same. -/
theorem loggedField_map_eq {params params' : Kw} (h : Kw.Related ParamVaries params params')
    (hnone : ∀ field ∈ params, leaks field.1 = false) :
    params.map loggedField = params'.map loggedField := by
  induction h with
  | nil => rfl
  | cons hf _ ih =>
    rename_i field field' _ _ _
    obtain ⟨key, v⟩ := field
    obtain ⟨key', v'⟩ := field'
    obtain ⟨rfl, hvaries⟩ := hf
    obtain ⟨hkey, hrest⟩ := List.forall_mem_cons.mp hnone
    rw [List.map_cons, List.map_cons, loggedField_eq hvaries hkey, ih hrest]

/-- Related parameters split alike at a first unknown credential. -/
theorem Related.split {before after params' : Kw} {key : String} {v : Json}
    (h : Kw.Related ParamVaries (before ++ (key, v) :: after) params')
    (hbefore : ∀ field ∈ before, leaks field.1 = false) :
    ∃ before' v' after', params' = before' ++ (key, v') :: after' ∧
      (∀ field ∈ before', leaks field.1 = false) ∧ ParamVaries key v v' ∧
      ahead before' key = ahead before key := by
  induction before generalizing params' with
  | nil =>
    obtain ⟨⟨key', v'⟩, after', ⟨rfl, hvaries⟩, -, rfl⟩ := List.forall₂_cons_left_iff.mp h
    exact ⟨[], v', after', rfl, hbefore, hvaries, rfl⟩
  | cons field before ih =>
    obtain ⟨key₁, v₁⟩ := field
    obtain ⟨⟨key₁', v₁'⟩, rest', ⟨rfl, hvaries⟩, hrest, rfl⟩ := List.forall₂_cons_left_iff.mp h
    obtain ⟨hkey, hbefore⟩ := List.forall_mem_cons.mp hbefore
    obtain ⟨before', v', after', rfl, hbefore', hvaries', hahead⟩ := ih hrest hbefore
    refine ⟨(key₁, v₁') :: before', v', after', rfl,
      List.forall_mem_cons.mpr ⟨hkey, hbefore'⟩, hvaries', ?_⟩
    have hsame : loggedText (key₁, v₁') = loggedText (key₁, v₁) := by
      unfold loggedText
      rw [loggedField_eq hvaries hkey]
    simp only [ahead, List.flatMap_cons, hsame, List.cons_append, List.append_assoc,
      List.cons.injEq, true_and] at hahead ⊢
    simpa using hahead

theorem lookup_split {before after : Kw} {key : String} {v : Json}
    (hbefore : ∀ field ∈ before, leaks field.1 = false) (hkey : leaks key = true) :
    (before ++ (key, v) :: after).lookup key = some v := by
  have hnone : before.lookup key = none := by
    refine List.lookup_eq_none_iff.mpr fun field hfield => ?_
    have hfield := hbefore field hfield
    rw [bne_iff_ne]
    rintro rfl
    rw [hkey] at hfield
    cases hfield
  rw [List.lookup_append, hnone, List.lookup_cons_self]
  rfl

/-- A written credential that is a text begins with its quote. -/
theorem dumps_str {key s text : String} (hkey : leaks key = true)
    (h : Json.dumps true (loggedField (key, .str s)).2 = some text) :
    text = Json.quote true s := by
  unfold loggedField at h
  rw [isSensitive_of_leaks hkey] at h
  exact (Option.some.inj h).symm

theorem toList_quote (s : String) :
    (Json.quote true s).toList = '"' :: (s.toList.flatMap (Json.escapeChar true) ++ ['"']) :=
  String.toList_ofList

/-- The bodies of related parameters are the same when no code is exposed. -/
theorem loggedBody_eq_of_not_exposes {q : HttpRequest} {params params' : Kw}
    (h : Kw.Related ParamVaries params params') (hhidden : ¬ Exposes q params)
    (htext : ∀ key v v', leaks key = true → params.lookup key = some v →
      params'.lookup key = some v' → Written params → ¬ FromJson q key →
      (∃ s, v = .str s) ∧ ∃ s, v' = .str s) :
    loggedBody params = loggedBody params' := by
  by_cases hwritten : Written params
  · have hwritten' : Written params' := (written_iff h).mp hwritten
    rcases split_leaks params with hnone | ⟨before, key, v, after, rfl, hbefore, hkey⟩
    · -- every value that differs is redacted
      cases h with
      | nil => rfl
      | cons hf hrest =>
        rw [loggedBody_eq (List.cons_ne_nil _ _), loggedBody_eq (List.cons_ne_nil _ _),
          loggedField_map_eq (.cons hf hrest) hnone]
    · -- the first value that may differ lies past the end of what is kept
      obtain ⟨before', v', after', rfl, hbefore', hvaries, hahead⟩ := Related.split h hbefore
      obtain ⟨text, rest, hdumps, hbody⟩ := loggedBody_split hwritten
      obtain ⟨text', rest', hdumps', hbody'⟩ := loggedBody_split hwritten'
      rw [hbody, hbody', hahead]
      by_cases hlong : maxBodyChars ≤ (ahead before key).length
      · rw [List.take_append_of_le_length hlong, List.take_append_of_le_length hlong]
      · have hshort : ¬ ((ahead before key).length + 1 < maxBodyChars ∨
            (ahead before key).length + 1 = maxBodyChars ∧ FromJson q key) := fun hs =>
          hhidden ⟨hwritten, before, key, v, after, rfl, hbefore, hkey, hs⟩
        obtain ⟨hlt, hjson⟩ := not_or.mp hshort
        have hlength : (ahead before key).length + 1 = maxBodyChars := by omega
        obtain ⟨⟨s, rfl⟩, s', rfl⟩ := htext key v v' hkey (lookup_split hbefore hkey)
          (lookup_split hbefore' hkey) hwritten fun hf => hjson ⟨hlength, hf⟩
        rw [dumps_str hkey hdumps, dumps_str hkey hdumps', toList_quote, toList_quote, ← hlength,
          List.take_length_add_append, List.take_length_add_append]
        rfl
  · rw [loggedBody_of_not_written hwritten,
      loggedBody_of_not_written fun hw => hwritten ((written_iff h).mpr hw)]

/-! ## Other codes -/

/-- An unknown credential that can be written is replaced. -/
def replacing (w : Json) (key : String) (v : Json) : Json :=
  if leaks key && (Json.dumps true (redact 1 v)).isSome then w else v

/-- The fields of an object, each replaced where it is an unknown credential. -/
def replacingFields (w : Json) : Json → Json
  | .obj fields => .obj (fields.map fun f => (f.1, replacing w f.1 f.2))
  | v => v

/-- The request with another text, and in JSON another value, for the unknown credentials. -/
def withCodes (q : HttpRequest) (text : String) (value : Json) : HttpRequest :=
  { q with
    args := q.args.map fun a => (a.1, if leaks a.1 then text else a.2)
    formParams := q.formParams.map fun f => (f.1, replacing (.str text) f.1 f.2)
    jsonData := q.jsonData.map (replacingFields value) }

theorem paramVaries_replacing {w : Json} (hw : Writable w) (key : String) (v : Json) :
    ParamVaries key v (replacing w key v) := by
  unfold replacing
  split
  · next h =>
    obtain ⟨hkey, hv⟩ := (Bool.and_eq_true _ _).mp h
    exact Or.inr ⟨mem_credentialParams_of_leaks hkey, hv, hw⟩
  · exact Or.inl rfl

theorem query_withCodes (q : HttpRequest) (text : String) (value : Json) :
    (withCodes q text value).query = q.query.map fun f => (f.1, replacing (.str text) f.1 f.2) := by
  unfold HttpRequest.query withCodes
  rw [List.map_map, List.map_map]
  refine List.map_congr_left fun a _ => ?_
  have hwritable : (Json.dumps true (redact 1 (.str a.2))).isSome = true := rfl
  simp only [Function.comp_apply, replacing, hwritable, Bool.and_true]
  split <;> rfl

theorem jsonFields_withCodes (q : HttpRequest) (text : String) (value : Json) :
    jsonFields (withCodes q text value) =
      (jsonFields q).map fun fields => fields.map fun f => (f.1, replacing value f.1 f.2) := by
  unfold jsonFields withCodes
  dsimp only
  by_cases hzero : q.contentLength = 0
  · rw [if_pos hzero, if_pos hzero]
    rfl
  · rw [if_neg hzero, if_neg hzero]
    cases q.jsonData with
    | error message => rfl
    | ok v =>
      cases v with
      | obj fields => cases fields <;> rfl
      | null => rfl
      | foreign type => rfl
      | bool b => cases b <;> rfl
      | int i =>
        simp only [Except.map, replacingFields]
        split <;> rfl
      | float f =>
        simp only [Except.map, replacingFields]
        split <;> rfl
      | str s =>
        simp only [Except.map, replacingFields]
        split <;> rfl
      | arr items =>
        simp only [Except.map, replacingFields]
        split <;> rfl

theorem variant_withCodes {q : HttpRequest} (hform : TextForm q) (text : String) (value : Json)
    (hvalue : Writable value) : Variant q (withCodes q text value) where
  path := rfl
  method := rfl
  headers _ _ := rfl
  query := by
    rw [query_withCodes]
    exact .map fun f _ => paramVaries_replacing (w := .str text) rfl f.1 f.2
  mimetype := rfl
  form := .map fun f _ => paramVaries_replacing (w := .str text) rfl f.1 f.2
  textForm field hfield := by
    obtain ⟨f, hf, rfl⟩ := List.mem_map.mp hfield
    unfold replacing
    split
    · exact Or.inl ⟨text, rfl⟩
    · exact hform f hf
  contentLength := Iff.rfl
  jsonData := by
    unfold withCodes
    cases q.jsonData with
    | error message => exact Or.inl rfl
    | ok v =>
      cases v with
      | obj fields =>
        exact Or.inr ⟨fields, _, rfl, rfl, .map fun f _ => paramVaries_replacing hvalue f.1 f.2⟩
      | _ => exact Or.inl rfl

/-- What an unknown credential is after the replacement. -/
theorem lookup_withCodes {q : HttpRequest} {text : String} {value v : Json} {params params' : Kw}
    {key : String} (h : mergeParams q [] = .ok params)
    (h' : mergeParams (withCodes q text value) [] = .ok params') (hkey : leaks key = true)
    (hv : params.lookup key = some v) (hwritable : Writable v) :
    (FromJson q key → params'.lookup key = some value) ∧
      (¬ FromJson q key → params'.lookup key = some (.str text)) := by
  have hreplaced : ∀ w, replacing w key v = w := by
    intro w
    unfold replacing
    rw [hkey, hwritable]
    rfl
  by_cases hmime : q.mimetype ∈ formMimetypes
  · have hparams : params = q.formParams := by
      rw [mergeParams_form hmime, Kw.update_nil] at h
      exact (Except.ok.inj h).symm
    have hparams' : params' = q.formParams.map fun f => (f.1, replacing (.str text) f.1 f.2) := by
      rw [mergeParams_form (q := withCodes q text value) hmime, Kw.update_nil] at h'
      exact (Except.ok.inj h').symm
    refine ⟨fun hf => absurd hmime hf.1, fun _ => ?_⟩
    rw [hparams', lookup_map_value _ (replacing (.str text)), ← hparams, hv, Option.map_some,
      hreplaced]
  · rw [mergeParams_text hmime] at h
    rw [mergeParams_text (q := withCodes q text value) hmime, jsonFields_withCodes] at h'
    cases hfields : jsonFields q with
    | error e => rw [hfields] at h; cases h
    | ok fields =>
      rw [hfields] at h h'
      simp only [Except.map, Kw.update_nil, Except.ok.injEq] at h h'
      subst h h'
      rw [Kw.lookup_update] at hv
      rw [Kw.lookup_update, query_withCodes, lookup_map_value _ (replacing value),
        lookup_map_value _ (replacing (.str text))]
      cases hlookup : fields.lookup key with
      | some w =>
        rw [hlookup] at hv
        obtain rfl : w = v := Option.some.inj hv
        refine ⟨fun _ => by rw [Option.map_some, hreplaced]; rfl, fun hnot => ?_⟩
        exact absurd ⟨hmime, fields, hfields, by rw [hlookup]; rfl⟩ hnot
      | none =>
        rw [hlookup] at hv
        refine ⟨fun hf => ?_, fun _ => ?_⟩
        · obtain ⟨-, fields', hfields', hsome⟩ := hf
          rw [hfields] at hfields'
          cases hfields'
          rw [hlookup] at hsome
          cases hsome
        · rw [show q.query.lookup key = some v from hv, Option.map_some, hreplaced]
          rfl

/-! ## Independence -/

/-- Whatever becomes of the request and of a variant of it, their rows have the same body. -/
def LogsNoCredential (W : Serving) : Prop :=
  ∀ q', Variant W.request q' → ∀ (uid uid' : Option Nat) (a a' : Attempt) (rest rest' : List Attempt),
    List.Forall₂ (SameStart W) (a :: rest) (a' :: rest') →
    (∀ b ∈ a :: rest, b.LogsBody) → (∀ b ∈ a' :: rest', b.LogsBody) →
    ∀ row ∈ (serveRequest W uid a rest).1.rows,
      ∀ row' ∈ (serveRequest (W.withRequest q') uid' a' rest').1.rows,
        row.requestBody = row'.requestBody

/-- Rows are written, and some database lets the request reach its endpoint with parameters that
show a code. -/
def ShowsCode (W : Serving) : Prop :=
  W.Logs ∧ ∃ db call, serve W.site db W.route [] W.request = .ok call ∧
    Exposes W.request call.params

/-- What is no field of the JSON body is a text, or cannot be written. -/
theorem str_of_not_fromJson {q : HttpRequest} (hform : TextForm q) {params : Kw} {key : String}
    {v : Json} (h : mergeParams q [] = .ok params) (hv : params.lookup key = some v)
    (hwritable : Writable v) (hjson : ¬ FromJson q key) : ∃ s, v = .str s := by
  by_cases hmime : q.mimetype ∈ formMimetypes
  · rw [mergeParams_form hmime, Kw.update_nil] at h
    cases h
    rcases hform _ (Kw.mem_of_lookup hv) with htext | ⟨type, htype⟩
    · exact htext
    · dsimp only at htype
      subst htype
      cases hwritable
  · rw [mergeParams_text hmime] at h
    cases hfields : jsonFields q with
    | error e => rw [hfields] at h; cases h
    | ok fields =>
      rw [hfields, Except.map, Kw.update_nil] at h
      cases h
      rw [Kw.lookup_update] at hv
      cases hlookup : fields.lookup key with
      | some w => exact absurd ⟨hmime, fields, hfields, by rw [hlookup]; rfl⟩ hjson
      | none =>
        rw [hlookup, Option.none_or] at hv
        obtain ⟨a, -, ha⟩ := List.mem_map.mp (Kw.mem_of_lookup hv)
        exact ⟨a.2, (congrArg Prod.snd ha).symm⟩

theorem writable_of_written {params : Kw} {key : String} {v : Json} (h : Written params)
    (hv : params.lookup key = some v) (hkey : leaks key = true) : Writable v := by
  have hsome := h _ (Kw.mem_of_lookup hv)
  unfold loggedText Json.fieldText loggedField at hsome
  rw [Option.isSome_map, isSensitive_of_leaks hkey] at hsome
  exact hsome

theorem fromJson_iff {q q' : HttpRequest} (h : Variant q q') (key : String) :
    FromJson q key ↔ FromJson q' key := by
  unfold FromJson
  rw [h.mimetype]
  refine and_congr_right fun _ => ?_
  rcases jsonFields_variant h with ⟨e, hq, hq'⟩ | ⟨fields, fields', hq, hq', hrelated⟩
  · rw [hq, hq']
  · rw [hq, hq']
    rcases hrelated.lookup key with ⟨hk, hk'⟩ | ⟨v, v', hk, hk', -⟩
    · simp only [Except.ok.injEq, exists_eq_left', hk, hk']
    · simp only [Except.ok.injEq, exists_eq_left', hk, hk', Option.isSome_some]

/-- An attempt on a database, with its body logged. -/
def loggingAttempt (db : Database) : Attempt where
  db := db
  endpoint _ := .ok (makeJsonResponse (.obj []) [] 200)
  corePostDispatch _ := .ok ()
  flush := .ok ()
  answered := ⟨0, some "True", true⟩
  failed := ⟨0, some "True", true⟩
  exposeTraceback := none

theorem logsBody_loggingAttempt (db : Database) : ∀ b ∈ [loggingAttempt db], b.LogsBody := by
  intro b hb
  cases List.mem_singleton.mp hb
  exact ⟨rfl, rfl⟩

/-- A request leaves a row with the body of the parameters it is served with. -/
theorem exists_row {W : Serving} (hlogs : W.Logs) (hargs : W.pathArgs = []) {db : Database}
    {call : Call} (hcall : serve W.site db W.route [] W.request = .ok call) :
    ∃ row ∈ (serveRequest W none (loggingAttempt db) []).1.rows,
      row.requestBody = loggedBody call.params := by
  obtain ⟨row, added, hrows, -⟩ := finish_rows hlogs (a := loggingAttempt db) rfl rfl
    (RequestState.initial none)
  have hmem : row ∈ (serveRequest W none (loggingAttempt db) []).1.rows := by
    show row ∈ ((retrying W).finish (RequestState.initial none) (loggingAttempt db)).1.rows
    rw [hrows]
    simp
  have hserved : W.call (loggingAttempt db) = .ok call := by
    unfold Serving.call
    rw [hargs]
    exact hcall
  refine ⟨row, hmem, ?_⟩
  rw [requestBody_of_mem (logsBody_loggingAttempt db) hmem, finalParams, hserved]

/-- In an independent log every variant that is served has the body of the request. -/
theorem loggedBody_eq_of_logsNoCredential {W : Serving} (hindependent : LogsNoCredential W)
    (hlogs : W.Logs) (hargs : W.pathArgs = []) {db : Database} {call call' : Call}
    {q' : HttpRequest} (hvariant : Variant W.request q')
    (hcall : serve W.site db W.route [] W.request = .ok call)
    (hcall' : serve W.site db W.route [] q' = .ok call') :
    loggedBody call.params = loggedBody call'.params := by
  obtain ⟨row, hrow, hbody⟩ := exists_row hlogs hargs hcall
  obtain ⟨row', hrow', hbody'⟩ := exists_row (W := W.withRequest q') hlogs hargs hcall'
  have hlogged := logsBody_loggingAttempt db
  rw [← hbody, ← hbody']
  exact hindependent q' hvariant none none _ _ [] []
    (.cons ⟨rfl, fun _ => rfl⟩ .nil) hlogged hlogged row hrow row' hrow'

section

variable {site : Site} {route : Route} (hsite : IgnoresParameters site)
  (hroute : IsTokenRoute route) {q : HttpRequest} (hform : TextForm q) {db : Database} {call : Call}
  (hcall : serve site db route [] q = .ok call) {before after : Kw} {key : String} {v : Json}
  (hsplit : call.params = before ++ (key, v) :: after)
  (hbefore : ∀ field ∈ before, leaks field.1 = false) (hkey : leaks key = true)
  (hwritten : Written call.params)

include hsite hroute hform hcall hsplit hbefore hkey hwritten

/-- The body of a variant with other codes, up to and from the first code. -/
theorem loggedBody_withCodes (text : String) (value : Json) (hvalue : Writable value) :
    ∃ call' v' written rest, serve site db route [] (withCodes q text value) = .ok call' ∧
      (FromJson q key → v' = value) ∧ (¬ FromJson q key → v' = .str text) ∧
      Json.dumps true (loggedField (key, v')).2 = some written ∧
      loggedBody call'.params =
        some (String.ofList ((ahead before key ++ (written.toList ++ rest)).take maxBodyChars)) := by
  have hvariant := variant_withCodes hform text value hvalue
  rcases serve_variant hsite hroute hvariant db with ⟨e, he, -⟩ | ⟨call₀, call', hq, hq', hrelated⟩
  · rw [hcall] at he
    cases he
  · obtain rfl : call₀ = call := Except.ok.inj (hq.symm.trans hcall)
    have hwritten' : Written call'.params := (written_iff hrelated).mp hwritten
    have hlookup : call₀.params.lookup key = some v := by
      rw [hsplit]
      exact lookup_split hbefore hkey
    rw [hsplit] at hrelated
    obtain ⟨before', v', after', hsplit', hbefore', -, hahead⟩ := Related.split hrelated hbefore
    rw [hsplit'] at hwritten'
    obtain ⟨written, rest, hdumps, hbody⟩ := loggedBody_split hwritten'
    have hlookup' : call'.params.lookup key = some v' := by
      rw [hsplit']
      exact lookup_split hbefore' hkey
    have hreplaced := lookup_withCodes (mergeParams_of_serve hcall)
      (mergeParams_of_serve hq') hkey hlookup
      (writable_of_written hwritten hlookup hkey)
    refine ⟨call', v', written, rest, hq', fun hjson => ?_, fun hjson => ?_, hdumps, ?_⟩
    · exact Option.some.inj (hlookup'.symm.trans (hreplaced.1 hjson))
    · exact Option.some.inj (hlookup'.symm.trans (hreplaced.2 hjson))
    · rw [hsplit', hbody, hahead]

/-- With a text for the codes, the first one is written between quotes. -/
theorem loggedBody_withText (text : String) :
    ∃ call' rest, serve site db route [] (withCodes q text (.str text)) = .ok call' ∧
      loggedBody call'.params = some (String.ofList
        ((ahead before key ++ ((Json.quote true text).toList ++ rest)).take maxBodyChars)) := by
  obtain ⟨call', v', written, rest, hcall', hjson, htext, hdumps, hbody⟩ :=
    loggedBody_withCodes hsite hroute hform hcall hsplit hbefore hkey hwritten text (.str text) rfl
  have hv' : v' = .str text := by
    by_cases hfrom : FromJson q key
    · exact hjson hfrom
    · exact htext hfrom
  subst hv'
  refine ⟨call', rest, hcall', ?_⟩
  rw [hbody, dumps_str hkey hdumps]

/-- With `null` for a code of the JSON body, the first one is written without. -/
theorem loggedBody_withNull (hjson : FromJson q key) (text : String) :
    ∃ call' rest, serve site db route [] (withCodes q text .null) = .ok call' ∧
      loggedBody call'.params = some (String.ofList
        ((ahead before key ++ ("null".toList ++ rest)).take maxBodyChars)) := by
  obtain ⟨call', v', written, rest, hcall', hnull, -, hdumps, hbody⟩ :=
    loggedBody_withCodes hsite hroute hform hcall hsplit hbefore hkey hwritten text .null rfl
  have hv' : v' = .null := hnull hjson
  subst hv'
  have hnull : written = "null" := by
    unfold loggedField at hdumps
    rw [isSensitive_of_leaks hkey] at hdumps
    exact (Option.some.inj hdumps).symm
  refine ⟨call', rest, hcall', ?_⟩
  rw [hbody, hnull]

end

theorem take_append_cancel {α : Type} {n : Nat} {l x y : List α}
    (h : (l ++ x).take n = (l ++ y).take n) : x.take (n - l.length) = y.take (n - l.length) := by
  rw [List.take_append, List.take_append] at h
  exact List.append_cancel_left h

/-- A log that shows a code depends on it. -/
theorem not_logsNoCredential_of_showsCode {W : Serving} (hsite : IgnoresParameters W.site)
    (hroute : IsTokenRoute W.route) (hargs : W.pathArgs = []) (hform : TextForm W.request)
    (hshows : ShowsCode W) : ¬ LogsNoCredential W := by
  intro hindependent
  obtain ⟨hlogs, db, call, hcall, hwritten, before, key, v, after, hsplit, hbefore, hkey, hlength⟩ :=
    hshows
  have hsame : ∀ {text text' : String} (value value' : Json) {call₁ call₂ : Call},
      Writable value → Writable value' →
      serve W.site db W.route [] (withCodes W.request text value) = .ok call₁ →
      serve W.site db W.route [] (withCodes W.request text' value') = .ok call₂ →
      loggedBody call₁.params = loggedBody call₂.params := by
    intro text text' value value' call₁ call₂ hvalue hvalue' h₁ h₂
    rw [← loggedBody_eq_of_logsNoCredential hindependent hlogs hargs
        (variant_withCodes hform text value hvalue) hcall h₁,
      loggedBody_eq_of_logsNoCredential hindependent hlogs hargs
        (variant_withCodes hform text' value' hvalue') hcall h₂]
  obtain ⟨call₁, rest₁, hcall₁, hbody₁⟩ :=
    loggedBody_withText hsite hroute hform hcall hsplit hbefore hkey hwritten "a"
  rw [toList_quote] at hbody₁
  rcases hlength with hshort | ⟨hlast, hjson⟩
  · -- two texts differ after the quote
    obtain ⟨call₂, rest₂, hcall₂, hbody₂⟩ :=
      loggedBody_withText hsite hroute hform hcall hsplit hbefore hkey hwritten "b"
    rw [toList_quote] at hbody₂
    have heq := hsame (.str "a") (.str "b") rfl rfl hcall₁ hcall₂
    rw [hbody₁, hbody₂, Option.some.injEq, String.ofList_inj] at heq
    have hcut := take_append_cancel heq
    obtain ⟨n, hn⟩ : ∃ n, maxBodyChars - (ahead before key).length = n + 2 :=
      ⟨maxBodyChars - (ahead before key).length - 2, by omega⟩
    rw [hn] at hcut
    simp [Json.escapeChar] at hcut
  · -- a text and null differ in the quote
    obtain ⟨call₂, rest₂, hcall₂, hbody₂⟩ :=
      loggedBody_withNull hsite hroute hform hcall hsplit hbefore hkey hwritten hjson "b"
    have heq := hsame (.str "a") .null rfl rfl hcall₁ hcall₂
    rw [hbody₁, hbody₂, Option.some.injEq, String.ofList_inj] at heq
    have hcut := take_append_cancel heq
    have hn : maxBodyChars - (ahead before key).length = 1 := by omega
    rw [hn] at hcut
    simp at hcut

/-- **Credentials in the log.**  The rows of a token or revoke request whose bodies are logged do
not depend on its credentials exactly when no row can show a code: rows are not written at all,
or no database lets the request reach the endpoint, or its parameters show none. -/
theorem credentials_logged_iff {W : Serving} (hsite : IgnoresParameters W.site)
    (hroute : IsTokenRoute W.route) (hargs : W.pathArgs = []) (hform : TextForm W.request) :
    LogsNoCredential W ↔ ¬ ShowsCode W := by
  refine ⟨fun h hshows => not_logsNoCredential_of_showsCode hsite hroute hargs hform hshows h, ?_⟩
  intro hhidden q' hvariant uid uid' a a' rest rest' hsame hlogged hlogged' row hrow row' hrow'
  have hlogs : W.Logs := by
    by_contra hnot
    rw [serveRequest_rows_of_not hnot] at hrow
    cases hrow
  rw [requestBody_of_mem hlogged hrow, requestBody_of_mem hlogged' hrow']
  have hrelated := finalParams_variant hsite hroute hargs hvariant hsame
  rcases finalParams_cases (W := W) a rest with hnil | ⟨b, call, hcall, hparams⟩
  · rw [hnil] at hrelated ⊢
    rw [List.forall₂_nil_left_iff.mp hrelated]
  · rw [Serving.call, hargs] at hcall
    refine loggedBody_eq_of_not_exposes hrelated
      (fun hexposes => hhidden ⟨hlogs, b.db, call, hcall, hparams ▸ hexposes⟩) ?_
    intro key v v' hkey hv hv' hwritten hjson
    rw [hparams] at hv hwritten
    have hwritable := writable_of_written hwritten hv hkey
    refine ⟨str_of_not_fromJson hform (mergeParams_of_serve hcall) hv hwritable hjson, ?_⟩
    rcases finalParams_cases (W := W.withRequest q') a' rest' with hnil' |
      ⟨b', call', hcall', hparams'⟩
    · rw [hnil'] at hv'
      cases hv'
    · rw [hparams'] at hv' hrelated
      rw [Serving.call, show (W.withRequest q').pathArgs = [] from hargs] at hcall'
      have hwritten' : Written call'.params :=
        (written_iff hrelated).mp (hparams ▸ hwritten)
      exact str_of_not_fromJson hvariant.textForm (mergeParams_of_serve hcall') hv'
        (writable_of_written hwritten' hv' hkey) fun h => hjson ((fromJson_iff hvariant key).mpr h)

/-! ## A code and a refresh token -/

def tokenRequest (fields : Kw) : HttpRequest :=
  { textRequest 64 (.ok (.obj fields)) with path := "/api/v1/oauth2/token", headers := [] }

def tokenServing (fields : Kw) : Serving :=
  { sampleServing with
    route := Routes.token.route (versionedPath 1 "/oauth2/token")
    request := tokenRequest fields }

def refreshFields : Kw := [("grant_type", .str "refresh_token"), ("refresh_token", .str "sot_AAAA")]

def codeFields : Kw := [("grant_type", .str "authorization_code"), ("code", .str "sot_AAAA")]

theorem tokenServing_ignores (fields : Kw) : IgnoresParameters (tokenServing fields).site :=
  fun _ _ _ _ => ⟨rfl, rfl⟩

theorem tokenServing_route (fields : Kw) : IsTokenRoute (tokenServing fields).route :=
  ⟨1, Or.inl rfl⟩

theorem tokenServing_form (fields : Kw) : TextForm (tokenServing fields).request :=
  fun _ h => by cases h

/-- A refresh token is never shown. -/
theorem credentials_logged_refresh : LogsNoCredential (tokenServing refreshFields) := by
  refine (credentials_logged_iff (tokenServing_ignores _) (tokenServing_route _) rfl
    (tokenServing_form _)).mpr ?_
  rintro ⟨-, db, call, hcall, -, before, key, v, after, hsplit, -, hkey, -⟩
  have hparams : call.params = refreshFields :=
    (Except.ok.inj (mergeParams_of_serve hcall)).symm
  have hmem : (key, v) ∈ refreshFields := by
    rw [← hparams, hsplit]
    simp
  simp only [refreshFields, List.mem_cons, List.not_mem_nil, or_false, Prod.mk.injEq] at hmem
  rcases hmem with ⟨rfl, -⟩ | ⟨rfl, -⟩
  · exact absurd hkey (by decide)
  · exact absurd hkey (by decide)

/-- An authorization code is, whatever becomes of its exchange. -/
theorem not_credentials_logged_code : ¬ LogsNoCredential (tokenServing codeFields) := by
  refine not_logsNoCredential_of_showsCode (tokenServing_ignores _) (tokenServing_route _) rfl
    (tokenServing_form _) ⟨⟨rfl, rfl⟩, archivedDatabase, ⟨7, 1, none, codeFields⟩, by rfl, ?_⟩
  refine ⟨by decide, [("grant_type", .str "authorization_code")], "code", .str "sot_AAAA", [], rfl,
    by decide, by decide, Or.inl (by decide)⟩

end SsiRest.RequestLog
