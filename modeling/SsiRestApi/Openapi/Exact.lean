import Mathlib.Data.Set.Basic
import SsiRestApi.Openapi.Document
import SsiRestApi.Routes

/-!
# What the document lists

The OpenAPI document of a version against the routes the router serves under it.

    the document lists exactly the served routes ↔
      routes without methods serve no more than is listed, none has plain `{text}`,
      and none differs from another in converters only          (buildDocument_exact_iff)
-/

namespace SsiRest

open Py

/-- The paths are patterns that start with a slash. -/
def RestRoute.WellFormed (r : RestRoute) : Prop :=
  ∀ path ∈ r.paths, startsWith path "/" = true ∧ ∃ p : Pattern, p.text = path

/-- The rules are those of the declarations, in any order, among rules of other types. -/
def IsRoutingMap (declared : List RestRoute) (rules : List Rule) : Prop :=
  ∀ rule, rule ∈ rules ∧ rule.type = "ssi_rest" ↔
    ∃ r ∈ declared, ∃ own, r.rules = .ok own ∧ rule ∈ own

section

variable (httpMethods : Set String) (declared : List RestRoute) (version : Nat)

/-- Requests have the methods that are declared, and `GET`. -/
structure DeclaresMethods : Prop where
  get : "GET" ∈ httpMethods
  declared : ∀ r ∈ declared, ∀ methods, r.methods = some methods →
    ∀ method ∈ methods, Py.upper method ∈ httpMethods

/-- The router serves the method on the pattern, under `/api/v<version>/`. -/
def Serves (pattern : Pattern) (method : String) : Prop :=
  method ∈ httpMethods ∧ method ∉ ignoredHttpMethods ∧
    startsWith pattern.text (versionedPath version "/") = true ∧
    ∃ r ∈ declared, r.serves method = true ∧
      ∃ patterns, r.expandedRoutes = .ok patterns ∧ pattern.text ∈ patterns

/-- The document and the router agree: a listed pair reads back as one served pattern, a served
pair is listed, and the parameters are the placeholders.  Keys are methods in lower case. -/
structure Document.Exact (d : Document) : Prop where
  sound : ∀ template key operation, d.paths.cell template key = some operation →
    ∃! pattern : Pattern, readTemplate template = pattern.erased ∧
      ∃ method, Serves httpMethods declared version pattern method ∧ Py.lower method = key
  complete : ∀ (pattern : Pattern) method, Serves httpMethods declared version pattern method →
    ∃ template operation, readTemplate template = pattern.erased ∧
      d.paths.cell template (Py.lower method) = some operation
  parameters : ∀ template key operation, d.paths.cell template key = some operation →
    operation.parameters.map (·.name) = placeholders (readTemplate template)

/-- A declaration of the pattern names a method with the key, or names none and the key is
that of `GET`. -/
def Names (pattern : Pattern) (key : String) : Prop :=
  ∃ r ∈ declared, version ∈ r.versions ∧
    (∃ path ∈ r.paths, pattern.text = versionedPath version path) ∧
    ∃ method, method ∉ ignoredHttpMethods ∧ r.serves method = true ∧
      (r.methods = none → method = "GET") ∧ Py.lower method = key

/-- What the routes of a version must be for the document to tell them apart. -/
structure Documentable : Prop where
  methods : ∀ (pattern : Pattern) method, Serves httpMethods declared version pattern method →
    Names declared version pattern (Py.lower method)
  plain : ∀ (pattern : Pattern) method, Serves httpMethods declared version pattern method →
    ¬ pattern.HasLiteral
  distinct : ∀ (p q : Pattern) m n, Serves httpMethods declared version p m →
    Serves httpMethods declared version q n →
    Py.lower m = Py.lower n → p.erased = q.erased → p = q

end

/-! ## Declarations and rules -/

/-- A declared path is a pattern under each of its versions. -/
theorem exists_pattern {path : String} (h : ∃ p : Pattern, p.text = path) (version : Nat) :
    ∃ p : Pattern, p.text = versionedPath version path := by
  obtain ⟨q, rfl⟩ := h
  exact ⟨q.versioned version, q.text_versioned version⟩

/-- The rules of declarations are a routing map of them. -/
theorem isRoutingMap_rules (declared : List RestRoute) :
    IsRoutingMap declared (declared.flatMap fun r => r.rules.toOption.getD []) := by
  intro rule
  constructor
  · rintro ⟨hin, -⟩
    obtain ⟨r, hr, hown⟩ := List.mem_flatMap.mp hin
    cases hrules : r.rules with
    | error e =>
      rw [hrules] at hown
      cases hown
    | ok own =>
      rw [hrules] at hown
      exact ⟨r, hr, own, hrules, hown⟩
  · rintro ⟨r, hr, own, hown, hin⟩
    refine ⟨List.mem_flatMap.mpr ⟨r, hr, by rw [hown]; exact hin⟩, ?_⟩
    obtain ⟨_, _, _, _, rfl⟩ := mem_rules.mp ⟨own, hown, hin⟩
    rfl

section

variable {declared : List RestRoute} (hdeclared : ∀ r ∈ declared, r.WellFormed)
  {version : Nat}

include hdeclared

theorem serves_iff_declared {httpMethods : Set String} {p : Pattern} {method : String} :
    Serves httpMethods declared version p method ↔
      method ∈ httpMethods ∧ method ∉ ignoredHttpMethods ∧
      ∃ r ∈ declared, r.serves method = true ∧ version ∈ r.versions ∧
        ∃ path ∈ r.paths, p.text = versionedPath version path := by
  unfold Serves
  refine and_congr_right fun _ => and_congr_right fun _ => ⟨?_, ?_⟩
  · rintro ⟨hunder, r, hr, hserves, hin⟩
    obtain ⟨own, hown, path, hpath, htext⟩ := mem_expandedRoutes.mp hin
    rw [htext, startsWith_versionedPath_iff (hdeclared r hr path hpath).1] at hunder
    subst hunder
    exact ⟨r, hr, hserves, hown, path, hpath, htext⟩
  · rintro ⟨r, hr, hserves, hversion, path, hpath, htext⟩
    refine ⟨?_, r, hr, hserves, mem_expandedRoutes.mpr ⟨version, hversion, path, hpath, htext⟩⟩
    rw [htext]
    exact (startsWith_versionedPath_iff (hdeclared r hr path hpath).1 version version).mpr rfl

/-- A named method is served. -/
theorem Names.serves {httpMethods : Set String} (hhttp : DeclaresMethods httpMethods declared)
    {p : Pattern} {key : String} (h : Names declared version p key) :
    ∃ method, Serves httpMethods declared version p method ∧ Py.lower method = key := by
  obtain ⟨r, hr, hversion, ⟨path, hpath, htext⟩, method, hignored, hserves, hget, hkey⟩ := h
  refine ⟨method, (serves_iff_declared hdeclared).mpr
    ⟨?_, hignored, r, hr, hserves, hversion, path, hpath, htext⟩, hkey⟩
  cases hmethods : r.methods with
  | none =>
    rw [hget hmethods]
    exact hhttp.get
  | some methods =>
    have hin := serves_iff.mp hserves _ (by rw [hmethods]; rfl)
    rcases (mem_ruleMethods rfl method).mp hin with hin | ⟨rfl, -⟩
    · rcases List.mem_append.mp hin with hin | hin
      · obtain ⟨m, hm, rfl⟩ := List.mem_map.mp hin
        exact hhttp.declared r hr methods hmethods m hm
      · rw [List.mem_singleton.mp hin] at hignored
        exact absurd (by decide) hignored
    · exact absurd (by decide) hignored

variable {rules : List Rule} (hrules : IsRoutingMap declared rules)

include hrules

/-- The rules that are documented. -/
theorem mem_documented {rule : Rule} :
    rule ∈ rules.filter (fun rule => rule.type == "ssi_rest" && ruleMatchesVersion rule.rule version) ↔
      ∃ r ∈ declared, version ∈ r.versions ∧
        ∃ path ∈ r.paths, rule = r.rule (versionedPath version path) := by
  rw [List.mem_filter, Bool.and_eq_true, beq_iff_eq, ← and_assoc, hrules rule]
  constructor
  · rintro ⟨⟨r, hr, hown⟩, hmatch⟩
    obtain ⟨own, hversion, path, hpath, rfl⟩ := mem_rules.mp hown
    have heq := (ruleMatchesVersion_versionedPath (hdeclared r hr path hpath).1 own version).mp hmatch
    subst heq
    exact ⟨r, hr, hversion, path, hpath, rfl⟩
  · rintro ⟨r, hr, hversion, path, hpath, rfl⟩
    exact ⟨⟨r, hr, mem_rules.mpr ⟨version, hversion, path, hpath, rfl⟩⟩,
      (ruleMatchesVersion_versionedPath (hdeclared r hr path hpath).1 version version).mpr rfl⟩

variable (componentSchemas : List String → Json)

/-- What the document lists is named by a declaration, under the template of its pattern. -/
theorem names_of_cell {template key : String} {operation : PathOperation}
    (h : (buildDocument componentSchemas rules version).paths.cell template key = some operation) :
    ∃ p : Pattern, template = p.template ∧
      operation.parameters = (p.items.filterMap Sum.getRight?).map Placeholder.parameter ∧
      Names declared version p key := by
  unfold buildDocument at h
  rw [Dict.cell_sorted] at h
  rcases Dict.cell_gather h with ⟨rule, hrule, hkey, hlookup⟩ | hnone
  · obtain ⟨r, hr, hversion, path, hpath, rfl⟩ := (mem_documented hdeclared hrules).mp hrule
    obtain ⟨p, hp⟩ := exists_pattern (hdeclared r hr path hpath).2 version
    have hopen : openapiPath (r.rule (versionedPath version path)).rule =
        (p.template, (p.items.filterMap Sum.getRight?).map Placeholder.parameter) := by
      rw [← openapiPath_text, hp]
      rfl
    rw [hopen] at hkey hlookup
    obtain ⟨hparams, method, hmethod, hlower⟩ := lookup_buildOperations hlookup
    obtain ⟨hignored, hserves, hget⟩ := mem_operationMethods.mp hmethod
    exact ⟨p, hkey.symm, hparams, r, hr, hversion, ⟨path, hpath, hp⟩, method, hignored, hserves, hget,
      hlower⟩
  · cases hnone

/-- What a declaration names is listed. -/
theorem exists_cell_of_names {p : Pattern} {key : String} (h : Names declared version p key) :
    ∃ operation, (buildDocument componentSchemas rules version).paths.cell p.template key =
      some operation := by
  obtain ⟨r, hr, hversion, ⟨path, hpath, htext⟩, method, hignored, hserves, hget, hkey⟩ := h
  rw [← Option.isSome_iff_exists]
  unfold buildDocument
  rw [Dict.cell_sorted]
  apply Dict.isSome_cell_gather
  refine Or.inl ⟨r.rule (versionedPath version path), ?_, ?_, ?_⟩
  · exact (mem_documented hdeclared hrules).mpr ⟨r, hr, hversion, path, hpath, rfl⟩
  · change (openapiPath (versionedPath version path)).1 = _
    rw [← htext, openapiPath_text]
  · exact mem_buildOperations.mpr
      ⟨method, mem_operationMethods.mpr ⟨hignored, hserves, hget⟩, hkey⟩

/-! ## Exactness -/

variable {httpMethods : Set String} (hhttp : DeclaresMethods httpMethods declared)

include hhttp

/-- **Exact documents are of documentable routes.** -/
theorem documentable_of_exact
    (h : (buildDocument componentSchemas rules version).Exact httpMethods declared version) :
    Documentable httpMethods declared version := by
  have hplain : ∀ (p : Pattern) method, Serves httpMethods declared version p method →
      readTemplate p.template = p.erased := by
    intro p method hserves
    obtain ⟨template, operation, hread, -⟩ := h.complete p method hserves
    have htemplate := template_of_reads hread
    subst htemplate
    exact hread
  have hdistinct : ∀ (p q : Pattern) m n, Serves httpMethods declared version p m →
      Serves httpMethods declared version q n →
      Py.lower m = Py.lower n → p.erased = q.erased → p = q := by
    intro p q m n hp hq hlower herased
    obtain ⟨template, operation, hread, hcell⟩ := h.complete p m hp
    exact (h.sound template _ operation hcell).unique ⟨hread, m, hp, rfl⟩
      ⟨hread.trans herased, n, hq, hlower.symm⟩
  refine ⟨?_, fun p method hserves => (readTemplate_template_iff p).mp (hplain p method hserves),
    hdistinct⟩
  -- the entry of a served pair is that of a declaration, and of this very pattern
  intro p method hserves
  obtain ⟨template, operation, hread, hcell⟩ := h.complete p method hserves
  obtain ⟨q, rfl, -, hnames⟩ := names_of_cell hdeclared hrules componentSchemas hcell
  obtain ⟨m, hm, hlower⟩ := hnames.serves hdeclared hhttp
  have heq := hdistinct q p m method hm hserves hlower ((hplain q m hm).symm.trans hread)
  subst heq
  exact hnames

/-- **Documentable routes have an exact document.** -/
theorem exact_of_documentable (h : Documentable httpMethods declared version) :
    (buildDocument componentSchemas rules version).Exact httpMethods declared version where
  sound := by
    intro template key operation hcell
    obtain ⟨p, rfl, -, hnames⟩ := names_of_cell hdeclared hrules componentSchemas hcell
    obtain ⟨method, hserves, rfl⟩ := hnames.serves hdeclared hhttp
    have hread := (readTemplate_template_iff p).mpr (h.plain p method hserves)
    refine ⟨p, ⟨hread, method, hserves, rfl⟩, ?_⟩
    rintro q ⟨hq, n, hserves', hlower⟩
    exact h.distinct q p n method hserves' hserves hlower (hq.symm.trans hread)
  complete := by
    intro p method hserves
    obtain ⟨operation, hcell⟩ := exists_cell_of_names hdeclared hrules componentSchemas
      (h.methods p method hserves)
    exact ⟨p.template, operation, (readTemplate_template_iff p).mpr (h.plain p method hserves), hcell⟩
  parameters := by
    intro template key operation hcell
    obtain ⟨p, rfl, hparams, hnames⟩ := names_of_cell hdeclared hrules componentSchemas hcell
    obtain ⟨method, hserves, -⟩ := hnames.serves hdeclared hhttp
    rw [hparams, (readTemplate_template_iff p).mpr (h.plain p method hserves), placeholders_erased]

end

/-! ## Routes with plain templates -/

/-- A served pattern is a declared one under the version. -/
theorem exists_versioned {httpMethods : Set String} {declared : List RestRoute}
    (hdeclared : ∀ r ∈ declared, r.WellFormed) {version : Nat} {p : Pattern} {method : String}
    (h : Serves httpMethods declared version p method) :
    ∃ r ∈ declared, ∃ q : Pattern, q.text ∈ r.paths ∧ p = q.versioned version := by
  obtain ⟨-, -, r, hr, -, -, path, hpath, htext⟩ := (serves_iff_declared hdeclared).mp h
  obtain ⟨q, rfl⟩ := (hdeclared r hr path hpath).2
  exact ⟨r, hr, q, hpath, Pattern.eq_of_text (htext.trans (q.text_versioned version).symm)⟩

/-- Routes are documentable when all have methods, no path has a `{` and different paths have
different templates. -/
theorem documentable_of_templates {declared : List RestRoute}
    (hdeclared : ∀ r ∈ declared, r.WellFormed) (hmethods : ∀ r ∈ declared, r.methods ≠ none)
    (hplain : ∀ r ∈ declared, ∀ path ∈ r.paths, '{' ∉ path.toList)
    (htemplates : ∀ r ∈ declared, ∀ s ∈ declared, ∀ a ∈ r.paths, ∀ b ∈ s.paths,
      (openapiPath a).1 = (openapiPath b).1 → a = b)
    (httpMethods : Set String) (version : Nat) : Documentable httpMethods declared version where
  methods := by
    intro p method hserves
    obtain ⟨-, hignored, r, hr, hmethod, hversion, hpath⟩ := (serves_iff_declared hdeclared).mp hserves
    exact ⟨r, hr, hversion, hpath, method, hignored, hmethod, fun hnone => absurd hnone (hmethods r hr),
      rfl⟩
  plain := by
    intro p method hserves hliteral
    obtain ⟨r, hr, q, hq, rfl⟩ := exists_versioned hdeclared hserves
    obtain ⟨before, name, after, -, -, heq⟩ := hliteral
    have hbrace : .inl '{' ∈ (q.versioned version).items := by
      rw [heq]
      simp [expression]
    rcases List.mem_append.mp hbrace with hin | hin
    · obtain ⟨c, hc, hcb⟩ := List.mem_map.mp hin
      cases hcb
      rcases versionedPath_plain version '{' hc with hin | hdecimal
      · exact absurd hin (by decide +kernel)
      · exact absurd hdecimal (by decide +kernel)
    · apply hplain r hr q.text hq
      unfold Pattern.text
      rw [String.toList_ofList]
      exact List.mem_flatMap.mpr ⟨_, hin, List.mem_singleton.mpr rfl⟩
  distinct := by
    intro p p' m n hp hp' _ herased
    obtain ⟨r, hr, q, hq, rfl⟩ := exists_versioned hdeclared hp
    obtain ⟨s, hs, q', hq', rfl⟩ := exists_versioned hdeclared hp'
    have hsame : q.erased = q'.erased := by
      unfold Pattern.erased Pattern.versioned at herased
      rw [List.map_append, List.map_append] at herased
      exact List.append_cancel_left herased
    have htext : q.text = q'.text := by
      apply htemplates r hr s hs _ hq _ hq'
      rw [openapiPath_text, openapiPath_text]
      unfold Pattern.template
      rw [← Scan.render_map Placeholder.name expression, ← Scan.render_map Placeholder.name expression]
      exact congrArg (fun l => String.ofList (Scan.render expression l)) hsame
    rw [Pattern.eq_of_text htext]

/-! ## The document -/

/-- **The OpenAPI document.**  The document of a version lists exactly the routes the router serves
under it, with the placeholders of each, exactly when a route without methods serves nothing but
`GET` that is not named elsewhere, no route has plain text that looks like a placeholder of a
template, and no two that share a method differ in their converters only. -/
theorem buildDocument_exact_iff {declared : List RestRoute}
    (hdeclared : ∀ r ∈ declared, r.WellFormed) {rules : List Rule}
    (hrules : IsRoutingMap declared rules) {httpMethods : Set String}
    (hhttp : DeclaresMethods httpMethods declared) (componentSchemas : List String → Json)
    (version : Nat) :
    (buildDocument componentSchemas rules version).Exact httpMethods declared version ↔
      Documentable httpMethods declared version :=
  ⟨documentable_of_exact hdeclared hrules componentSchemas hhttp,
    exact_of_documentable hdeclared hrules componentSchemas hhttp⟩

theorem declaresMethods_univ (declared : List RestRoute) : DeclaresMethods Set.univ declared :=
  ⟨Set.mem_univ _, fun _ _ _ _ _ _ => Set.mem_univ _⟩

/-- The paths of the repository are patterns. -/
theorem wellFormed_restRoutes : ∀ r ∈ Routes.restRoutes, r.WellFormed := by
  have hpaths : ∀ r ∈ Routes.restRoutes, ∀ path ∈ r.paths, startsWith path "/" = true ∧
      '<' ∉ (Scan.items matchParam 0 path.toList).filterMap Sum.getLeft? := by decide +kernel
  intro r hr path hpath
  exact ⟨(hpaths r hr path hpath).1, exists_pattern_iff.mpr (hpaths r hr path hpath).2⟩

/-- Without `ping`, the repository has an exact document. -/
theorem document_exact_restRoutes :
    (buildDocument (fun _ => .null)
      (Routes.restRoutes.tail.flatMap fun r => r.rules.toOption.getD []) 1).Exact Set.univ
      Routes.restRoutes.tail 1 := by
  have hdeclared : ∀ r ∈ Routes.restRoutes.tail, r.WellFormed :=
    fun r hr => wellFormed_restRoutes r (List.mem_of_mem_tail hr)
  refine (buildDocument_exact_iff hdeclared (isRoutingMap_rules _) (declaresMethods_univ _) _ 1).mpr ?_
  exact documentable_of_templates hdeclared (by decide +kernel) (by decide +kernel)
    (by decide +kernel) _ 1

/-- `ping` is served for `POST` and listed for `GET` alone. -/
theorem not_document_exact :
    ¬ (buildDocument (fun _ => .null) (Routes.ping.rules.toOption.getD []) 1).Exact Set.univ
      [Routes.ping] 1 := by
  intro h
  have hdeclared : ∀ r ∈ [Routes.ping], r.WellFormed := by
    intro r hr
    rw [List.mem_singleton.mp hr]
    exact wellFormed_restRoutes _ List.mem_cons_self
  obtain ⟨p, hp⟩ := exists_pattern
    ((exists_pattern_iff : (∃ p : Pattern, p.text = "/ping") ↔ _).mpr (by decide +kernel)) 1
  have hserves : Serves Set.univ [Routes.ping] 1 p "POST" :=
    (serves_iff_declared hdeclared).mpr ⟨Set.mem_univ _, by decide, Routes.ping, List.mem_singleton.mpr rfl,
      rfl, by decide, "/ping", by decide, hp⟩
  obtain ⟨template, operation, -, hcell⟩ := h.complete p "POST" hserves
  have hrules : IsRoutingMap [Routes.ping] (Routes.ping.rules.toOption.getD []) := by
    have hmap := isRoutingMap_rules [Routes.ping]
    rwa [List.flatMap_cons, List.flatMap_nil, List.append_nil] at hmap
  obtain ⟨q, -, -, r, hr, -, -, method, -, -, hget, hlower⟩ := names_of_cell hdeclared hrules _ hcell
  rw [List.mem_singleton.mp hr] at hget
  rw [hget rfl] at hlower
  exact absurd hlower (by decide +kernel)

end SsiRest
