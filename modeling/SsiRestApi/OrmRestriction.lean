import SsiRestApi.ProfileScope
import SsiRestApi.RouteMatching

/-!
# Restricting the ORM endpoints to models

The eight ORM routes serve every model through one pattern, so that a rule of an access
profile names a model by the path: `"/api/v1/orm/res.partner/*"`.

    such a rule matches ↔ the path is of an ORM route and its model is that one
                                                              (matchesRequest_modelRule)
    a profile of such rules decides by the model alone        (evaluateRequest_modelRules)
-/

namespace SsiRest

open Py UrlTemplate

/-- The routes of the ORM controller. -/
def Routes.ormRoutes : List RestRoute :=
  [Routes.ormSearch, Routes.ormRead, Routes.ormSearchRead, Routes.ormReadGroup, Routes.ormCreate,
   Routes.ormWrite, Routes.ormUnlink, Routes.ormCall]

/-- The path pattern of a model. -/
def ormModelPattern (model : String) : String := "/api/v1/orm/" ++ model ++ "/" ++ "*"

/-- A name that means itself in a pattern, and is one segment of a path. -/
def IsModelName (model : String) : Prop :=
  ∀ c ∈ model.toList, c ≠ '/' ∧ Fnmatch.special c = false

/-- A rule for the requests about a model. -/
def modelRule (sequence : Int) (effect : AccessEffect) (model : String) : ProfileRule where
  sequence := sequence
  effect := effect
  pathPattern := some (ormModelPattern model)
  invert := false
  httpMethods := none
  modelPattern := none
  operation := .any

/-- The model that a request is about, if it is for the ORM controller. -/
def Candidate.ormModel (c : Candidate) : Option String :=
  if (Routes.ormRoutes.map (·.endpoint)).contains c.route.endpoint then
    match c.kw.lookup "model" with
    | some (.str model) => some model
    | _ => none
  else none

/-! ## Paths of a model -/

/-- `/api/v1/orm/<string:model>/` and more. -/
def isOrmSpelling : List (Segment Placeholder) → Bool
  | .text a :: .text v :: .text o :: .hole p :: _ :: _ =>
    a == "api".toList && v == "v1".toList && o == "orm".toList && p.converter == some "string" &&
      p.name == "model"
  | _ => false

/-- `/api/v1/` and another segment. -/
def isOtherSpelling : List (Segment Placeholder) → Bool
  | .text a :: .text v :: .text o :: _ =>
    a == "api".toList && v == "v1".toList && o != "orm".toList && !o.contains '/'
  | _ => false

theorem spelled_ormRoutes :
    (Routes.ormRoutes.all fun r => r.patterns.all fun text =>
      (spellings text).all isOrmSpelling) = true := by decide +kernel

/-- The routes of the other controllers. -/
def Routes.otherRoutes : List RestRoute :=
  [Routes.ping, Routes.authorize, Routes.token, Routes.revoke] ++ Routes.ssiRestRoutes.drop 8

theorem spelled_otherRoutes :
    (Routes.otherRoutes.all fun r => !(Routes.ormRoutes.map (·.endpoint)).contains r.endpoint &&
      r.patterns.all fun text => (spellings text).all isOtherSpelling) = true := by decide +kernel

theorem mem_ormRoutes_or_mem_otherRoutes {r : RestRoute} (h : r ∈ Routes.restRoutes) :
    r ∈ Routes.ormRoutes ∨ r ∈ Routes.otherRoutes := by
  have hsplit : Routes.restRoutes = [Routes.ping, Routes.authorize, Routes.token, Routes.revoke] ++
      (Routes.ormRoutes ++ Routes.ssiRestRoutes.drop 8) := rfl
  unfold Routes.otherRoutes
  rw [hsplit] at h
  simp only [List.mem_append] at h ⊢
  exact or_left_comm.mp h

/-- A path begins with what its first segment and the rest of it begin with. -/
theorem exists_rest_of_fills_text {o : List Char} (ho : '/' ∉ o) {l : List (Segment Placeholder)}
    {path : List Char} {args : List (Placeholder × Json)}
    (h : Fills Placeholder.takes (slashed (.text o :: l)) path args) :
    ∃ rest, Fills Placeholder.takes (slashed l) rest args ∧ ∀ t more, '/' ∉ t →
      ('/' :: (t ++ '/' :: more) <+: path ↔ t = o ∧ '/' :: more <+: rest) := by
  obtain ⟨t', rest, a₁, a₂, rfl, rfl, ⟨rfl, rfl⟩, hrest, hslash⟩ := exists_of_fills_slashed h
  refine ⟨rest, hrest, fun t more ht => ?_⟩
  rw [List.cons_prefix_cons, and_iff_right rfl, prefix_segment_iff ht ho hslash]

/-- The paths below `/api/v1/`. -/
theorem exists_rest_of_fills_api {a v : List Char} (ha : a = "api".toList) (hv : v = "v1".toList)
    {l : List (Segment Placeholder)} {path : List Char} {args : List (Placeholder × Json)}
    (h : Fills Placeholder.takes (slashed (.text a :: .text v :: l)) path args) :
    ∃ rest, Fills Placeholder.takes (slashed l) rest args ∧
      ∀ more, "/api/v1".toList ++ '/' :: more <+: path ↔ '/' :: more <+: rest := by
  obtain ⟨rest, h, hapi⟩ := exists_rest_of_fills_text (by rw [ha]; decide) h
  obtain ⟨rest', h, hv1⟩ := exists_rest_of_fills_text (by rw [hv]; decide) h
  refine ⟨rest', h, fun more => ?_⟩
  rw [show "/api/v1".toList ++ '/' :: more = '/' :: ("api".toList ++ '/' :: ("v1".toList ++
    '/' :: more)) from rfl, hapi _ _ (by decide), and_iff_right ha.symm, hv1 _ _ (by decide),
    and_iff_right hv.symm]

theorem toList_modelPrefix (model : String) : ("/api/v1/orm/" ++ model ++ "/").toList =
    "/api/v1".toList ++ '/' :: ("orm".toList ++ '/' :: (model.toList ++ ['/'])) := by
  simp [String.toList_append]

/-- A path of the ORM controller is below a model exactly if that is its argument. -/
theorem prefix_iff_of_isOrmSpelling {l : List (Segment Placeholder)} (hl : isOrmSpelling l = true)
    {path : List Char} {args : List (Placeholder × Json)}
    (h : Fills Placeholder.takes (slashed l) path args) :
    ∃ text, (args.map fun a => (a.1.name, a.2)).lookup "model" = some (.str text) ∧
      ∀ model : String, '/' ∉ model.toList →
        (("/api/v1/orm/" ++ model ++ "/").toList <+: path ↔ text = model) := by
  unfold isOrmSpelling at hl
  split at hl
  · next a v o p s l =>
    simp only [Bool.and_eq_true, beq_iff_eq] at hl
    obtain ⟨⟨⟨⟨ha, hv⟩, ho⟩, hconverter⟩, hname⟩ := hl
    obtain ⟨rest, h, hapi⟩ := exists_rest_of_fills_api ha hv h
    obtain ⟨rest, h, horm⟩ := exists_rest_of_fills_text (by rw [ho]; decide) h
    obtain ⟨t, rest, a₁, a₂, rfl, rfl, ⟨value, hvalue, rfl⟩, hrest, hslash⟩ :=
      exists_of_fills_slashed h
    obtain ⟨rest, rfl, -⟩ := fills_char_iff.mp hrest
    obtain ⟨htext, rfl⟩ := Placeholder.takes_string hconverter hvalue
    refine ⟨String.ofList t, by simp [hname], fun model hmodel => ?_⟩
    rw [toList_modelPrefix, hapi, horm _ _ (by decide), and_iff_right ho.symm,
      List.cons_prefix_cons, and_iff_right rfl, prefix_segment_iff hmodel htext hslash,
      and_iff_left (List.cons_prefix_cons.mpr ⟨rfl, List.nil_prefix⟩), ← String.toList_inj,
      String.toList_ofList, eq_comm]
  · cases hl

/-- No other path is below a model of the ORM controller. -/
theorem not_prefix_of_isOtherSpelling {l : List (Segment Placeholder)}
    (hl : isOtherSpelling l = true) {path : List Char} {args : List (Placeholder × Json)}
    (h : Fills Placeholder.takes (slashed l) path args) (model : String) :
    ¬ ("/api/v1/orm/" ++ model ++ "/").toList <+: path := by
  unfold isOtherSpelling at hl
  split at hl
  · next a v o l =>
    simp only [Bool.and_eq_true, beq_iff_eq, bne_iff_ne, Bool.not_eq_true'] at hl
    obtain ⟨⟨⟨ha, hv⟩, ho⟩, hslash⟩ := hl
    obtain ⟨rest, h, hapi⟩ := exists_rest_of_fills_api ha hv h
    obtain ⟨rest, h, hother⟩ := exists_rest_of_fills_text (by simpa using hslash) h
    rw [toList_modelPrefix, hapi, hother _ _ (by decide)]
    exact fun hpre => ho hpre.1.symm
  · cases hl

/-! ## Rules for models -/

/-- A candidate spells its path in one of the ways of its pattern. -/
theorem Candidate.Answers.exists_spelling {c : Candidate} {method path : String}
    (h : c.Answers method path) : c.route.patterns = [c.pattern.text] ∧
      ∃ l ∈ spellings c.pattern.text, Fills Placeholder.takes (slashed l) path.toList c.args :=
  ⟨h.spelled.1, (Pattern.accepts_iff h.spelled.2.1).mp h.accepts⟩

/-- The path is below a model exactly if the request is for the ORM controller, about the model. -/
theorem prefix_iff_ormModel {c : Candidate} {method path : String} (h : c.Answers method path)
    {model : String} (hmodel : '/' ∉ model.toList) :
    ("/api/v1/orm/" ++ model ++ "/").toList <+: path.toList ↔ c.ormModel = some model := by
  obtain ⟨hpatterns, l, hl, hfills⟩ := h.exists_spelling
  unfold Candidate.ormModel
  rcases mem_ormRoutes_or_mem_otherRoutes h.declared with horm | hother
  · have hspelled := List.all_eq_true.mp spelled_ormRoutes c.route horm
    rw [hpatterns, List.all_cons, List.all_nil, Bool.and_true] at hspelled
    obtain ⟨text, hlookup, htail⟩ :=
      prefix_iff_of_isOrmSpelling (List.all_eq_true.mp hspelled l hl) hfills
    have hcontains : (Routes.ormRoutes.map (·.endpoint)).contains c.route.endpoint = true :=
      List.contains_iff_mem.mpr (List.mem_map_of_mem horm)
    rw [htail model hmodel, if_pos hcontains]
    unfold Candidate.kw
    rw [hlookup]
    simp
  · have hspelled := List.all_eq_true.mp spelled_otherRoutes c.route hother
    rw [hpatterns, List.all_cons, List.all_nil, Bool.and_true, Bool.and_eq_true] at hspelled
    obtain ⟨hendpoint, hspelled⟩ := hspelled
    rw [if_neg (by simpa using hendpoint)]
    exact iff_of_false (not_prefix_of_isOtherSpelling (List.all_eq_true.mp hspelled l hl) hfills
      model) (fun h => nomatch h)

/-- A rule for a model matches the requests about the model, whatever the endpoint, the method and
the spelling. -/
theorem matchesRequest_modelRule {c : Candidate} {q : HttpRequest} (h : c.Answers q.method q.path)
    {sequence : Int} {effect : AccessEffect} {model : String} (hmodel : IsModelName model) :
    (modelRule sequence effect model).matchesRequest
        ((c.route.route c.pattern.text).describe q) = true ↔ c.ormModel = some model := by
  have hslash : '/' ∉ model.toList := fun hin => (hmodel _ hin).1 rfl
  have hspecial : ∀ d ∈ ("/api/v1/orm/" ++ model ++ "/").toList, Fnmatch.special d = false := by
    intro d hd
    rw [String.toList_append, String.toList_append, List.mem_append, List.mem_append] at hd
    have hplain : ∀ {text : String}, (text.toList.all fun c => !Fnmatch.special c) = true →
        d ∈ text.toList → Fnmatch.special d = false :=
      fun htext hd => by simpa using List.all_eq_true.mp htext d hd
    rcases hd with (hd | hd) | hd
    · exact hplain (by decide +kernel) hd
    · exact (hmodel d hd).2
    · exact hplain (by decide +kernel) hd
  rw [← prefix_iff_ormModel h hslash, ← List.isPrefixOf_iff_prefix,
    ← Py.fnmatchcase_star hspecial]
  simp [ProfileRule.matchesRequest, modelRule, filledIn, Route.describe, ormModelPattern]

theorem ormModelPattern_injective : Function.Injective ormModelPattern := by
  intro model model' h
  have hlist := congrArg String.toList h
  unfold ormModelPattern at hlist
  simp only [String.toList_append, List.append_cancel_right_eq, List.append_cancel_left_eq] at hlist
  exact String.toList_inj.mp hlist

/-- All rules of the profile are for models. -/
def AccessProfile.OnModels (p : AccessProfile) : Prop :=
  ∀ rule ∈ p.ruleIds, ∃ model, IsModelName model ∧
    rule = modelRule rule.sequence rule.effect model

/-- **Rules for models.**  A profile whose rules are for models decides a request by the first of
them, in sequence order, that is for the model of the request; with its default effect if there is
none, or the request is not for the ORM controller. -/
theorem evaluateRequest_modelRules (p : AccessProfile) (hp : p.OnModels) (q : HttpRequest)
    (c : Candidate) (h : c.Answers q.method q.path) :
    p.evaluateRequest ((c.route.route c.pattern.text).describe q) = true ↔
      p.LetsBy fun rule => c.ormModel.isSome &&
        rule.pathPattern == c.ormModel.map ormModelPattern := by
  rw [AccessProfile.evaluateRequest_iff]
  refine AccessProfile.letsBy_congr fun rule hrule => ?_
  obtain ⟨model, hmodel, hrule⟩ := hp rule hrule
  rw [Bool.eq_iff_iff, hrule, matchesRequest_modelRule h hmodel]
  cases horm : c.ormModel with
  | none => simp
  | some text =>
    rw [Option.isSome_some, Bool.true_and, Option.map_some, beq_iff_eq, Option.some.injEq]
    show text = model ↔ some (ormModelPattern model) = some (ormModelPattern text)
    rw [Option.some.injEq, ormModelPattern_injective.eq_iff, eq_comm]

/-- A profile that lets requests about partners through and no others. -/
def onlyPartners : AccessProfile := ⟨true, .deny, [modelRule 10 .allow "res.partner"], [7], []⟩

theorem evaluateRequest_modelRules_partner : ∃ c : Candidate,
    c.Answers "GET" "/api/v1/orm/res.partner/search" ∧ c.ormModel = some "res.partner" ∧
      (onlyPartners.evaluateRequest ((c.route.route c.pattern.text).describe
        { keyedRequest with method := "GET", path := "/api/v1/orm/res.partner/search" }) = true ↔
        onlyPartners.LetsBy fun rule => c.ormModel.isSome &&
          rule.pathPattern == c.ormModel.map ormModelPattern) := by
  have hmodel : (Placeholder.takes ⟨some "string", "model"⟩ "res.partner".toList) =
      some (.str "res.partner") := by rfl
  have hsegments : segmentsOf "/api/v1/orm/<string:model>/search" =
      [.text "api".toList, .text "v1".toList, .text "orm".toList,
       .hole ⟨some "string", "model"⟩, .text "search".toList] := by decide +kernel
  have hfills := fills_slashed_cons (Segment.takes_text "api".toList) <|
    fills_slashed_cons (Segment.takes_text "v1".toList) <|
    fills_slashed_cons (Segment.takes_text "orm".toList) <|
    fills_slashed_cons (Segment.takes_hole hmodel) <|
    fills_slashed_cons (Segment.takes_text "search".toList) fills_slashed_nil
  rw [← hsegments] at hfills
  have hget : Routes.ormSearch.serves "GET" = true := by decide +kernel
  obtain ⟨c, hroute, hargs, hc⟩ := exists_candidate
    (by simp [Routes.restRoutes, Routes.ssiRestRoutes]) hget (by rfl)
    (exists_pattern_iff.mpr (by decide +kernel)) (by decide +kernel)
    "/api/v1/orm/res.partner/search" hfills
  have hname : IsModelName "res.partner" := by
    have hall : ("res.partner".toList.all fun c => c != '/' && !Fnmatch.special c) = true := by
      decide +kernel
    intro d hd
    simpa using List.all_eq_true.mp hall d hd
  have hrules : onlyPartners.OnModels := fun rule hrule =>
    ⟨"res.partner", hname, by
      rw [List.mem_singleton.mp hrule]
      rfl⟩
  refine ⟨c, hc, ?_, evaluateRequest_modelRules onlyPartners hrules _ c hc⟩
  unfold Candidate.ormModel Candidate.kw
  rw [hroute, hargs]
  rfl

end SsiRest
