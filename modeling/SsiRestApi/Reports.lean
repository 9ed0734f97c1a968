import SsiRestApi.MethodCall
import SsiRestApi.Orm

/-!
# The report endpoints

`report_list` shows the report definitions the caller may read, less those about a model that is
closed to the caller.  `report_render` resolves a report by name, external id or id, checks the
records as the caller, and has core render the report *of that report's name*: core resolves it
once more, and takes the first of several reports of one name.

    a report renders ↔ it is listed, the rules let the caller read every record of it, its type
                       is supported and the first report of its name renders    (render_iff_listed)
-/

namespace SsiRest.Reports

open Py Tx Acl MethodCall

/-- A row of `ir.actions.report`. -/
structure Report where
  name : String
  reportName : String
  model : Option String
  reportType : String
  deriving DecidableEq

/-- The records of a model and their rules. -/
structure Records (ρ : Type) where
  rules : List (Acl.Rule Group ρ)
  rows : List (Row ρ)
  /-- What the rules make of an id that no record has. -/
  missing : SsiRest.Env → Int → Except Exn Unit

/-- Why `_get_report` fails: its own `ValueError`, or that of `env.ref`, or something else. -/
inductive RefFailure where
  | valueError
  | raised (e : Exn)

/-- What is installed. -/
structure Site (ρ : Type) where
  /-- The reports as a search lists them, by `name` and `id`. -/
  reports : List (Row Report)
  nodup_reports : (reports.map Row.id).Nodup
  named_reports : ∀ r ∈ reports, r.val.reportName ≠ ""
  /-- The access list and the rules of `ir.actions.report`. -/
  security : Security Group Report
  /-- `ir_model_access`: whose model an entry is about, and the entry. -/
  access : List (String × Access Group)
  /-- `env[model]`. -/
  records : String → Option (Records ρ)
  /-- `env.ref(xmlid)`: the model and the id of a record that exists. -/
  ref : String → Option (String × Nat)
  /-- `report.get_external_id().get(report.id)`. -/
  externalId : Nat → Option String
  /-- A search for the reports of a model that is no text. -/
  searchOther : Json → Except Exn (List (Row Report))
  /-- `_get_report` of a reference that is no number and no text. -/
  getOther : Json → Except RefFailure Int
  /-- `_render_<report_type>` of a report for these ids. -/
  renderers : SsiRest.Env → Row Report → List Int → Except Exn (List UInt8)
  loads : String → Except String Json
  repr : Json → String

section

variable {ρ : Type} (site : Site ρ) (env : SsiRest.Env)

/-! ## Access -/

/-- `ir.model.access.check(model, "read", raise_exception=False)`. -/
def Site.check (model : String) : Bool :=
  env.su || site.access.any fun a => a.1 == model && a.2.grants env.user .read

/-- The access list and the rules of a model. -/
def Site.securityOf (model : String) (records : Records ρ) : Security Group ρ :=
  ⟨(site.access.filter fun a => a.1 == model).map Prod.snd, records.rules⟩

/-- The record rules on the records with these ids. -/
def Site.checkRules (model : String) (records : Records ρ) (ids : List Int) : Except Exn Unit := do
  let absent := ids.filter fun id => !records.rows.any fun r => (r.id : Int) == id
  forM absent (records.missing env)
  if (records.rows.filter fun r => ids.contains (r.id : Int)).all fun r =>
      (site.securityOf model records).passesRules env.user .read r.val then .ok ()
  else .error (.userError .accessError 403 model)

/-- `records.check_access("read")` on `env[model].browse(ids)`. -/
def Site.checkRead (model : String) (ids : List Int) : Except Exn Unit :=
  match site.records model with
  | none => .error (.python "KeyError")
  | some records =>
    if env.su then .ok ()
    else if !(site.securityOf model records).hasAccess env.user .read then
      .error (.userError .accessError 403 model)
    else site.checkRules env model records ids

/-! ## report_list -/

/-- The reports of a model, or all of them. -/
def Site.matching (model : Json) : Except Exn (List (Row Report)) :=
  if model.truthy then
    match model with
    | .str name => .ok (site.reports.filter fun r => r.val.model == some name)
    | model => site.searchOther model
  else .ok site.reports

/-- `env["ir.actions.report"].search(domain)`. -/
def Site.search (model : Json) : Except Exn (List (Row Report)) :=
  if !(env.su || site.security.hasAccess env.user .read) then
    .error (.userError .accessError 403 "ir.actions.report")
  else do
    let found ← site.matching model
    pure (found.filter fun r => env.su || site.security.passesRules env.user .read r.val)

/-- An entry of the list. -/
def Site.entry (r : Row Report) : Json :=
  .obj [("report_name", .str r.val.reportName), ("name", .str r.val.name),
    ("model", (r.val.model.map Json.str).getD (.bool false)),
    ("report_type", .str r.val.reportType),
    ("xmlid", ((filledIn (site.externalId r.id)).map Json.str).getD (.bool false))]

/-- `report_list`. -/
def reportList (params : Kw) : Except Exn (List Json) := do
  let reports ← site.search env (params.get "model")
  pure ((reports.filter fun r =>
    match filledIn r.val.model with
    | none => true
    | some model => site.check env model).map site.entry)

/-! ## report_render -/

/-- The first report of a name. -/
def Site.firstNamed (name : String) : Option (Row Report) :=
  site.reports.find? fun r => r.val.reportName == name

/-- Core's `_get_report(report_ref)`: the id of a record, which need not exist.  `browse(True)` is
a `TypeError`. -/
def getReport : Json → Except RefFailure Int
  | .int id => .ok id
  | .bool _ => .error (.raised (.python "TypeError"))
  | .str ref =>
    match site.firstNamed ref with
    | some r => .ok r.id
    | none =>
      match site.ref ref with
      | some (model, id) => if model = "ir.actions.report" then .ok id else .error .valueError
      | none => .error .valueError
  | ref => site.getOther ref

/-- `resolve_report`. -/
def resolveReport (reportRef : Json) : Except Exn Int :=
  if !reportRef.truthy then
    .error (RestAuthError "validation_error" "report_name is required." 422)
  else match getReport site reportRef with
    | .ok id => .ok id
    | .error .valueError => .error (RestAuthError "missing_record"
        ("Report " ++ site.repr reportRef ++ " does not exist.") 404)
    | .error (.raised e) => .error e

/-- The fields of a report. -/
def Site.report (id : Int) : Except Exn (Row Report) :=
  match site.reports.find? fun r => (r.id : Int) == id with
  | some r => .ok r
  | none => .error (.userError .missingError 404 "ir.actions.report")

/-- `_CONTENT_TYPES`. -/
def contentTypes : List (String × String) :=
  [("qweb-pdf", "application/pdf"), ("qweb-html", "text/html"), ("qweb-text", "text/plain")]

/-- Core's `_render(report_ref, res_ids)`. -/
def render (reportRef : String) (ids : List Int) : Except Exn (List UInt8) :=
  match getReport site (.str reportRef) with
  | .ok id => do
    let report ← site.report id
    site.renderers env report ids
  | .error .valueError => .error (.python "ValueError")
  | .error (.raised e) => .error e

/-- The check of `report_render` on the records. -/
def Site.checkRecords (report : Report) (ids : List Int) : Except Exn Unit :=
  match filledIn report.model with
  | none => .ok ()
  | some model => site.checkRead env model ids

def Site.contentType (report : Report) : Except Exn String :=
  match contentTypes.lookup report.reportType with
  | some contentType => .ok contentType
  | none => .error (RestAuthError "validation_error"
      ("Report type " ++ site.repr (.str report.reportType) ++ " is not supported.") 422)

/-- `report_render`: the content and its type. -/
def reportRender (params : Kw) : Except Exn (List UInt8 × String) := do
  let id ← resolveReport site (params.get "report_name")
  let recordIds ← parseIds site.loads (params.get "ids")
  if recordIds.isEmpty then
    .error (RestAuthError "validation_error" "ids is required." 422)
  else do
    let report ← site.report id
    site.checkRecords env report.val recordIds
    let contentType ← site.contentType report.val
    let content ← render site env report.val.reportName recordIds
    pure (content, contentType)

/-- The rules let the caller read every record with one of these ids. -/
structure Site.RulesAdmit (model : String) (records : Records ρ) (ids : List Int) : Prop where
  missing : ∀ id ∈ ids, (∀ r ∈ records.rows, (r.id : Int) ≠ id) → records.missing env id = .ok ()
  passes : ∀ r ∈ records.rows, (r.id : Int) ∈ ids →
    (site.securityOf model records).passesRules env.user .read r.val = true

/-- The same of the model of a report, if it has one; nothing is checked for the superuser. -/
def Site.Admits (report : Report) (ids : List Int) : Prop :=
  ∀ model, filledIn report.model = some model → ∃ records, site.records model = some records ∧
    (env.su = true ∨ site.RulesAdmit env model records ids)

end

variable {ρ : Type} {site : Site ρ} {env : SsiRest.Env}

/-! ## What each step finds -/

theorem forM_ok_iff {α ε : Type} {f : α → Except ε Unit} {l : List α} :
    forM l f = .ok () ↔ ∀ a ∈ l, f a = .ok () := by
  induction l with
  | nil => exact iff_of_true rfl (List.forall_mem_nil _)
  | cons a l ih =>
    rw [List.forM_cons, bind_ok_iff, List.forall_mem_cons, ← ih]
    exact ⟨fun ⟨_, ha, hl⟩ => ⟨ha, hl⟩, fun ⟨ha, hl⟩ => ⟨(), ha, hl⟩⟩

/-- A report is found by its id. -/
theorem report_of_mem {r : Row Report} (h : r ∈ site.reports) : site.report r.id = .ok r := by
  unfold Site.report
  cases hfind : site.reports.find? fun r' => (r'.id : Int) == r.id with
  | none =>
    have hno := List.find?_eq_none.mp hfind r h
    exact absurd (beq_self_eq_true (r.id : Int)) hno
  | some r' =>
    have hid : (r'.id : Int) = r.id := by simpa using List.find?_some hfind
    have hr' := List.mem_of_find?_eq_some hfind
    rw [List.inj_on_of_nodup_map site.nodup_reports hr' h (Int.ofNat.inj hid)]

theorem firstNamed_isSome {r : Row Report} (h : r ∈ site.reports) :
    ∃ first, site.firstNamed r.val.reportName = some first := by
  unfold Site.firstNamed
  cases hfind : site.reports.find? fun r' => r'.val.reportName == r.val.reportName with
  | none =>
    have hno := List.find?_eq_none.mp hfind r h
    exact absurd (beq_self_eq_true r.val.reportName) hno
  | some first => exact ⟨first, rfl⟩

theorem getReport_of_named {name : String} {first : Row Report}
    (h : site.firstNamed name = some first) : getReport site (.str name) = .ok first.id := by
  unfold getReport
  dsimp only
  rw [h]

/-- Core renders the first report of the name it is given. -/
theorem render_eq {name : String} {first : Row Report} (h : site.firstNamed name = some first)
    (ids : List Int) : render site env name ids = site.renderers env first ids := by
  have hmem : first ∈ site.reports := List.mem_of_find?_eq_some h
  unfold render
  rw [getReport_of_named h]
  dsimp only
  rw [report_of_mem hmem]
  rfl

theorem hasAccess_securityOf {model : String} {records : Records ρ} (hsu : env.su = false) :
    (site.securityOf model records).hasAccess env.user .read = site.check env model := by
  unfold Site.check Site.securityOf Security.hasAccess
  rw [hsu, Bool.false_or, List.any_map, List.any_filter]
  rfl

theorem checkRules_ok_iff {model : String} {records : Records ρ} {ids : List Int} :
    site.checkRules env model records ids = .ok () ↔ site.RulesAdmit env model records ids := by
  have habsent : (∀ id ∈ ids.filter fun id => !records.rows.any fun r => (r.id : Int) == id,
      records.missing env id = .ok ()) ↔
      ∀ id ∈ ids, (∀ r ∈ records.rows, (r.id : Int) ≠ id) → records.missing env id = .ok () := by
    simp only [List.mem_filter, Bool.not_eq_true', List.any_eq_false, beq_iff_eq, and_imp, ne_eq]
  have hpasses : ((records.rows.filter fun r => ids.contains (r.id : Int)).all fun r =>
      (site.securityOf model records).passesRules env.user .read r.val) = true ↔
      ∀ r ∈ records.rows, (r.id : Int) ∈ ids →
        (site.securityOf model records).passesRules env.user .read r.val = true := by
    simp only [List.all_eq_true, List.mem_filter, List.contains_iff_mem, and_imp]
  unfold Site.checkRules
  rw [bind_ok_iff]
  constructor
  · rintro ⟨_, hforM, hif⟩
    split at hif
    · next hall => exact ⟨habsent.mp (forM_ok_iff.mp hforM), hpasses.mp hall⟩
    · cases hif
  · rintro ⟨hmissing, hall⟩
    exact ⟨(), forM_ok_iff.mpr (habsent.mpr hmissing), if_pos (hpasses.mpr hall)⟩

theorem checkRead_ok_iff {model : String} {ids : List Int} :
    site.checkRead env model ids = .ok () ↔ site.check env model = true ∧
      ∃ records, site.records model = some records ∧
        (env.su = true ∨ site.RulesAdmit env model records ids) := by
  unfold Site.checkRead
  cases site.records model with
  | none => simp
  | some records =>
    dsimp only
    cases hsu : env.su with
    | true => simp [Site.check, hsu]
    | false =>
      rw [if_neg Bool.false_ne_true, hasAccess_securityOf hsu]
      cases site.check env model with
      | false => simp
      | true => simp [checkRules_ok_iff]

theorem model_eq_of_entry_eq {r r' : Row Report} (h : site.entry r' = site.entry r) :
    r'.val.model = r.val.model := by
  unfold Site.entry at h
  injection h with h
  obtain ⟨-, h⟩ := List.cons.inj h
  obtain ⟨-, h⟩ := List.cons.inj h
  obtain ⟨h, -⟩ := List.cons.inj h
  have h := (Prod.mk.inj h).2
  cases hr' : r'.val.model with
  | none =>
    cases hr : r.val.model with
    | none => rfl
    | some model =>
      rw [hr, hr'] at h
      cases h
  | some model' =>
    cases hr : r.val.model with
    | none =>
      rw [hr, hr'] at h
      cases h
    | some model =>
      rw [hr, hr'] at h
      cases h
      rfl

/-- The reports a search without a model, or for the model of a report, finds. -/
theorem mem_search {model : Json} {found : List (Row Report)}
    (h : site.search env model = .ok found) {r : Row Report} (hr : r ∈ site.reports)
    (hvisible : env.su = true ∨ site.security.passesRules env.user .read r.val = true)
    (hmodel : model.truthy = false ∨ ∃ name, r.val.model = some name ∧ model = .str name) :
    r ∈ found := by
  unfold Site.search at h
  split at h
  · cases h
  obtain ⟨all, hall, h⟩ := bind_ok_iff.mp h
  cases h
  refine List.mem_filter.mpr ⟨?_, by simpa using hvisible⟩
  unfold Site.matching at hall
  by_cases htruthy : model.truthy = true
  · rw [if_pos htruthy] at hall
    obtain ⟨name, hname, rfl⟩ := hmodel.resolve_left (by simp [htruthy])
    cases hall
    exact List.mem_filter.mpr ⟨hr, by simp [hname]⟩
  · rw [if_neg htruthy] at hall
    cases hall
    exact hr

/-- A report whose definition the caller may read is listed exactly if its model, if it has one, is
open to the caller. -/
theorem entry_mem_iff {params : Kw} {entries : List Json}
    (h : reportList site env params = .ok entries) {r : Row Report} (hr : r ∈ site.reports)
    (hvisible : env.su = true ∨ site.security.passesRules env.user .read r.val = true)
    (hmodel : (params.get "model").truthy = false ∨
      ∃ model, r.val.model = some model ∧ params.get "model" = .str model) :
    site.entry r ∈ entries ↔
      ∀ model, filledIn r.val.model = some model → site.check env model = true := by
  obtain ⟨found, hfound, h⟩ := bind_ok_iff.mp h
  cases h
  have hopen : ∀ r' : Row Report, (match filledIn r'.val.model with
      | none => true
      | some model => site.check env model) = true ↔
        ∀ model, filledIn r'.val.model = some model → site.check env model = true := by
    intro r'
    cases filledIn r'.val.model with
    | none => simp
    | some model => simp
  rw [List.mem_map]
  constructor
  · rintro ⟨r', hr', hentry⟩
    rw [← model_eq_of_entry_eq hentry]
    exact (hopen r').mp (List.mem_filter.mp hr').2
  · intro hcheck
    exact ⟨r, List.mem_filter.mpr ⟨mem_search hfound hr hvisible hmodel, (hopen r).mpr hcheck⟩, rfl⟩

theorem checkRecords_ok_iff {r : Report} {ids : List Int} :
    site.checkRecords env r ids = .ok () ↔
      (∀ model, filledIn r.model = some model → site.check env model = true) ∧
        site.Admits env r ids := by
  unfold Site.checkRecords Site.Admits
  cases filledIn r.model with
  | none => simp
  | some model => simp [checkRead_ok_iff]

theorem contentType_ok_iff {r : Report} {contentType : String} :
    site.contentType r = .ok contentType ↔
      contentTypes.lookup r.reportType = some contentType := by
  unfold Site.contentType
  cases contentTypes.lookup r.reportType with
  | none => simp
  | some contentType' => simp

/-- **What is listed renders.**  For a caller and a report whose definition the caller may read, a
render of that report succeeds exactly if the report is listed, the rules let the caller read every
record of it, its type is supported, and core renders the first report of its name; and that is
the report itself exactly if its name refers to it. -/
theorem render_iff_listed {listParams : Kw} {entries : List Json}
    (hlist : reportList site env listParams = .ok entries) {r : Row Report} (hr : r ∈ site.reports)
    (hvisible : env.su = true ∨ site.security.passesRules env.user .read r.val = true)
    (hmodel : (listParams.get "model").truthy = false ∨
      ∃ model, r.val.model = some model ∧ listParams.get "model" = .str model)
    {params : Kw} (hnamed : resolveReport site (params.get "report_name") = .ok r.id)
    {ids : List Int} (hids : parseIds site.loads (params.get "ids") = .ok ids) (hne : ids ≠ []) :
    (∀ content contentType, reportRender site env params = .ok (content, contentType) ↔
      site.entry r ∈ entries ∧ site.Admits env r.val ids ∧
        contentTypes.lookup r.val.reportType = some contentType ∧
        ∃ first, site.firstNamed r.val.reportName = some first ∧
          site.renderers env first ids = .ok content) ∧
    (site.firstNamed r.val.reportName = some r ↔
      resolveReport site (.str r.val.reportName) = .ok r.id) := by
  obtain ⟨first, hfirst⟩ := firstNamed_isSome hr
  constructor
  · intro content contentType
    unfold reportRender
    simp only [hnamed, hids, bind_ok_iff, Except.ok.injEq, exists_eq_left']
    rw [if_neg (by simpa using hne)]
    simp only [report_of_mem hr, bind_ok_iff, Except.ok.injEq, exists_eq_left',
      entry_mem_iff hlist hr hvisible hmodel, contentType_ok_iff, render_eq hfirst, hfirst,
      Option.some.injEq]
    constructor
    · rintro ⟨_, hchecked, contentType', htype, content', hcontent, h⟩
      cases h
      obtain ⟨hopen, hadmits⟩ := checkRecords_ok_iff.mp hchecked
      exact ⟨hopen, hadmits, htype, hcontent⟩
    · rintro ⟨hopen, hadmits, htype, hcontent⟩
      exact ⟨(), checkRecords_ok_iff.mpr ⟨hopen, hadmits⟩, contentType, htype, content, hcontent,
        rfl⟩
  · have hname : (Json.str r.val.reportName).truthy = true := by
      simpa using site.named_reports r hr
    unfold resolveReport
    rw [hname, getReport_of_named hfirst, hfirst]
    simp only [Bool.not_true, Bool.false_eq_true, if_false, Option.some.injEq, Except.ok.injEq,
      Int.natCast_inj]
    constructor
    · rintro rfl
      rfl
    · intro hid
      exact List.inj_on_of_nodup_map site.nodup_reports (List.mem_of_find?_eq_some hfirst) hr hid

/-! ## Two reports of one name -/

/-- A report of notes and one of tasks, both called `note.sheet`; a report renders as its id. -/
def twins : Site Unit where
  reports := [⟨5, ⟨"Notes", "note.sheet", some "note", "qweb-pdf"⟩⟩,
    ⟨6, ⟨"Tasks", "note.sheet", some "task", "qweb-text"⟩⟩]
  nodup_reports := by decide
  named_reports := by decide
  security := ⟨[⟨some .user, [.read]⟩], []⟩
  access := [("task", ⟨some .user, [.read]⟩)]
  records _ := some ⟨[], [⟨3, ()⟩], fun _ _ => .ok ()⟩
  ref _ := none
  externalId _ := none
  searchOther _ := .ok []
  getOther _ := .error .valueError
  renderers _ report _ := .ok [UInt8.ofNat report.id]
  loads _ := .error ""
  repr _ := ""

/-- A user who cannot read notes is listed the report of tasks alone, and rendered that of notes. -/
theorem render_iff_listed_twins :
    reportList twins ⟨⟨7, [.user]⟩, false⟩ [] = .ok [twins.entry
      ⟨6, ⟨"Tasks", "note.sheet", some "task", "qweb-text"⟩⟩] ∧
    reportRender twins ⟨⟨7, [.user]⟩, false⟩ [("report_name", .int 6), ("ids", .int 3)] =
      .ok ([5], "text/plain") := by
  have hlist : reportList twins ⟨⟨7, [.user]⟩, false⟩ [] = .ok [twins.entry
      ⟨6, ⟨"Tasks", "note.sheet", some "task", "qweb-text"⟩⟩] := by rfl
  refine ⟨hlist, ((render_iff_listed hlist (List.mem_cons_of_mem _ List.mem_cons_self)
    (Or.inr (by decide)) (Or.inl rfl) (by rfl) (by rfl) (List.cons_ne_nil 3 [])).1 _ _).mpr
      ⟨List.mem_cons_self, ?_, rfl, _, rfl, rfl⟩⟩
  rintro model hmodel
  cases hmodel
  exact ⟨_, rfl, Or.inr ⟨fun _ _ _ => rfl, by decide⟩⟩

end SsiRest.Reports
