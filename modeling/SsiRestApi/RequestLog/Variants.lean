import SsiRestApi.Lib.Related
import SsiRestApi.RequestBody
import SsiRestApi.RequestLog.Persisted
import SsiRestApi.Routes

/-!
# Requests that differ in their credentials

Two requests that agree on everything but the values of the parameters the token
and revoke endpoints take credentials from: the one reaches its endpoint when the
other does, with parameters that differ in these values only.

    serve of a variant fails alike, or calls with related parameters   (serve_variant)
-/

namespace SsiRest.RequestLog

open Py Tx

/-- The parameters `token` and `revoke` read credentials from. -/
def credentialParams : List String :=
  ["client_secret", "code", "code_verifier", "refresh_token", "token"]

/-- JSON can write the value. -/
def Writable (v : Json) : Prop := (Json.dumps true (redact 1 v)).isSome = true

/-- The same value, or two values of a credential. -/
def ParamVaries (key : String) (v v' : Json) : Prop :=
  v = v' ∨ key ∈ credentialParams ∧ Writable v ∧ Writable v'

/-- Forms hold text and uploaded files. -/
def TextForm (q : HttpRequest) : Prop :=
  ∀ field ∈ q.formParams, (∃ s, field.2 = .str s) ∨ ∃ type, field.2 = .foreign type

/-- The request differs from another in the values of credentials only. -/
structure Variant (q q' : HttpRequest) : Prop where
  path : q.path = q'.path
  method : q.method = q'.method
  headers : ∀ name, lower name ≠ "content-length" → q.header name = q'.header name
  query : Kw.Related ParamVaries q.query q'.query
  mimetype : q.mimetype = q'.mimetype
  form : Kw.Related ParamVaries q.formParams q'.formParams
  textForm : TextForm q'
  contentLength : q.contentLength = 0 ↔ q'.contentLength = 0
  jsonData : q.jsonData = q'.jsonData ∨ ∃ fields fields', q.jsonData = .ok (.obj fields) ∧
    q'.jsonData = .ok (.obj fields') ∧ Kw.Related ParamVaries fields fields'

/-- The core's part for public routes does not read request parameters. -/
def IgnoresParameters (site : Site) : Prop :=
  ∀ db q q', Variant q q' → site.coreAuth "public" db q = site.coreAuth "public" db q' ∧
    site.corePreDispatch q = site.corePreDispatch q'

/-- A route of the token or the revoke endpoint. -/
def IsTokenRoute (route : Route) : Prop :=
  ∃ version, route = Routes.token.route (versionedPath version "/oauth2/token") ∨
    route = Routes.revoke.route (versionedPath version "/oauth2/revoke")

theorem IsTokenRoute.auth {route : Route} (h : IsTokenRoute route) :
    route.auth = .core "public" := by
  obtain ⟨version, rfl | rfl⟩ := h <;> rfl

theorem ParamVaries.refl (key : String) (v : Json) : ParamVaries key v v := Or.inl rfl

theorem ParamVaries.eq {key : String} {v v' : Json} (h : ParamVaries key v v')
    (hkey : key ∉ credentialParams) : v = v' :=
  h.resolve_right fun hc => hkey hc.1

theorem ParamVaries.writable_iff {key : String} {v v' : Json} (h : ParamVaries key v v') :
    Writable v ↔ Writable v' := by
  rcases h with rfl | ⟨-, hv, hv'⟩
  · exact Iff.rfl
  · exact iff_of_true hv hv'

/-! ## Merging -/

variable {q q' : HttpRequest}

theorem jsonFields_variant (h : Variant q q') :
    (∃ e, jsonFields q = .error e ∧ jsonFields q' = .error e) ∨
      ∃ fields fields', jsonFields q = .ok fields ∧ jsonFields q' = .ok fields' ∧
        Kw.Related ParamVaries fields fields' := by
  have hsame : q.jsonData = q'.jsonData → jsonFields q = jsonFields q' := by
    intro hdata
    unfold jsonFields
    rw [hdata]
    by_cases hzero : q.contentLength = 0
    · rw [if_pos hzero, if_pos (h.contentLength.mp hzero)]
    · rw [if_neg hzero, if_neg fun hz => hzero (h.contentLength.mpr hz)]
  rcases h.jsonData with hdata | ⟨fields, fields', hdata, hdata', hrelated⟩
  · rw [hsame hdata]
    cases jsonFields q' with
    | error e => exact Or.inl ⟨e, rfl, rfl⟩
    | ok fields => exact Or.inr ⟨fields, fields, rfl, rfl, .refl ParamVaries.refl fields⟩
  · right
    by_cases hzero : q.contentLength = 0
    · exact ⟨[], [], jsonFields_empty hzero, jsonFields_empty (h.contentLength.mp hzero), .nil⟩
    · exact ⟨fields, fields', jsonFields_obj hzero hdata,
        jsonFields_obj (fun hz => hzero (h.contentLength.mpr hz)) hdata', hrelated⟩

theorem mergeParams_variant (h : Variant q q') (pathArgs : Kw) :
    (∃ e, mergeParams q pathArgs = .error e ∧ mergeParams q' pathArgs = .error e) ∨
      ∃ params params', mergeParams q pathArgs = .ok params ∧
        mergeParams q' pathArgs = .ok params' ∧ Kw.Related ParamVaries params params' := by
  have hpath : Kw.Related ParamVaries pathArgs pathArgs := .refl ParamVaries.refl pathArgs
  by_cases hform : q.mimetype ∈ formMimetypes
  · exact Or.inr ⟨_, _, mergeParams_form hform, mergeParams_form (h.mimetype ▸ hform),
      h.form.update hpath⟩
  · rw [mergeParams_text hform, mergeParams_text (h.mimetype ▸ hform)]
    rcases jsonFields_variant h with ⟨e, hq, hq'⟩ | ⟨fields, fields', hq, hq', hrelated⟩
    · rw [hq, hq']
      exact Or.inl ⟨e, rfl, rfl⟩
    · rw [hq, hq']
      exact Or.inr ⟨_, _, rfl, rfl, (h.query.update hrelated).update hpath⟩

/-! ## Serving -/

theorem args_lookup_variant (h : Variant q q') {key : String} (hkey : key ∉ credentialParams) :
    q.args.lookup key = q'.args.lookup key := by
  have hinj : Function.Injective (Option.map Json.str) :=
    Option.map_injective fun _ _ => Json.str.inj
  apply hinj
  rw [← lookup_query, ← lookup_query]
  rcases h.query.lookup key with ⟨hnone, hnone'⟩ | ⟨v, v', hv, hv', hvaries⟩
  · rw [hnone, hnone']
  · rw [hv, hv', hvaries.eq hkey]

theorem resolveCompany_variant (h : Variant q q') (db : Database) (user : Account) :
    resolveCompany db user q = resolveCompany db user q' := by
  unfold resolveCompany
  rw [h.headers "X-Odoo-Company" (by decide), args_lookup_variant h (by decide)]

/-- A variant fails as the request does, or is served with related parameters. -/
theorem serve_variant {site : Site} {route : Route} (hsite : IgnoresParameters site)
    (hroute : IsTokenRoute route) (h : Variant q q') (db : Database) :
    (∃ e, serve site db route [] q = .error e ∧ serve site db route [] q' = .error e) ∨
      ∃ call call', serve site db route [] q = .ok call ∧ serve site db route [] q' = .ok call' ∧
        Kw.Related ParamVaries call.params call'.params := by
  obtain ⟨hauth, hpre⟩ := hsite db q q' h
  have hid : identify site db route q = identify site db route q' := by
    unfold identify
    rw [hroute.auth]
    dsimp only
    rw [hauth]
  have hdescribe : route.describe q = route.describe q' := by
    unfold Route.describe
    rw [h.path, h.method]
  have hlang : resolveLang db q = resolveLang db q' := by
    unfold resolveLang
    rw [h.headers "Accept-Language" (by decide)]
  rcases serve_alike hid hpre hdescribe (resolveCompany_variant h db) hlang [] with
    hfails | ⟨uid, companyId, lang, hserve, hserve'⟩
  · exact Or.inl hfails
  · rw [hserve, hserve']
    rcases mergeParams_variant h [] with ⟨e, hq, hq'⟩ | ⟨params, params', hq, hq', hrelated⟩
    · rw [hq, hq']
      exact Or.inl ⟨e, rfl, rfl⟩
    · rw [hq, hq']
      exact Or.inr ⟨_, _, rfl, rfl, hrelated⟩

/-! ## Runs -/

/-- The request served instead. -/
def Serving.withRequest (W : Serving) (q : HttpRequest) : Serving := { W with request := q }

/-- Two attempts that find one database and are retried after the same failures. -/
structure SameStart (W : Serving) (a a' : Attempt) : Prop where
  db : a.db = a'.db
  retried : ∀ e, W.retried a e = W.retried a' e

/-- The parameters at the end of a request and of a variant are related. -/
theorem finalParams_variant {W : Serving} (hsite : IgnoresParameters W.site)
    (hroute : IsTokenRoute W.route) (hargs : W.pathArgs = []) (h : Variant W.request q')
    {a a' : Attempt} {rest rest' : List Attempt}
    (hsame : List.Forall₂ (SameStart W) (a :: rest) (a' :: rest')) :
    Kw.Related ParamVaries (finalParams W [] a rest) (finalParams (W.withRequest q') [] a' rest') := by
  have hcall : ∀ {a a'}, SameStart W a a' →
      (∃ e, W.call a = .error e ∧ (W.withRequest q').call a' = .error e) ∨
      ∃ call call', W.call a = .ok call ∧ (W.withRequest q').call a' = .ok call' ∧
        Kw.Related ParamVaries call.params call'.params := by
    intro a a' ha
    unfold Serving.call Serving.withRequest
    dsimp only
    rw [hargs, ← ha.db]
    exact serve_variant hsite hroute h a.db
  induction rest generalizing a a' rest' with
  | nil =>
    obtain ⟨ha, hrest⟩ := List.forall₂_cons.mp hsame
    cases hrest
    rcases hcall ha with ⟨e, hq, hq'⟩ | ⟨call, call', hq, hq', hrelated⟩
    · rw [finalParams, finalParams, hq, hq']
      exact .nil
    · rw [finalParams, finalParams, hq, hq']
      exact hrelated
  | cons next rest ih =>
    obtain ⟨ha, hrest⟩ := List.forall₂_cons.mp hsame
    obtain ⟨next', rest', -, hrest', rfl⟩ := List.forall₂_cons_left_iff.mp hrest
    rcases hcall ha with ⟨e, hq, hq'⟩ | ⟨call, call', hq, hq', hrelated⟩
    · rw [finalParams, finalParams, hq, hq']
      dsimp only
      rw [show (W.withRequest q').retried a' e = W.retried a e from (ha.retried e).symm]
      split
      · exact ih hrest
      · exact .nil
    · rw [finalParams, finalParams, hq, hq']
      exact hrelated

end SsiRest.RequestLog
