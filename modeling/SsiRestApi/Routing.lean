import SsiRestApi.Dispatch

/-!
# Versioned routes

`rest_route` registers each of its paths under each of its API versions.
-/

namespace SsiRest

/-- `PATH_PREFIX`. -/
def pathPrefix : String := "/api"

/-- The URL of a path under one version. -/
def versionedPath (version : Nat) (path : String) : String :=
  pathPrefix ++ "/v" ++ toString version ++ path

/-- `SUPPORTED_VERSIONS`. -/
def supportedVersions : List Nat := [1]

/-- A controller method with the arguments of its `rest_route`. -/
structure RestRoute where
  endpoint : String
  paths : List String
  versions : List Nat := supportedVersions
  auth : RouteAuth := .ssiRest
  methods : Option (List String)
  schemes : List String := []
  operation : Option String
  model : Option String := none

/-- The routing of the method under one of its patterns. -/
def RestRoute.route (r : RestRoute) (rule : String) : Route where
  rule := rule
  auth := r.auth
  schemes := r.schemes
  model := r.model
  operation := r.operation

/-- The request methods its rules match: any without a declaration, else the declared ones with
the `OPTIONS` that Odoo adds and the `HEAD` that the router adds to `GET`. -/
def RestRoute.serves (r : RestRoute) (method : String) : Bool :=
  match r.methods with
  | none => true
  | some methods =>
    (methods.map Py.upper ++ ["OPTIONS"]).contains method ||
      method == "HEAD" && (methods.map Py.upper).contains "GET"

/-- `rest_route(paths, versions)`: the patterns it expands to. -/
def RestRoute.expandedRoutes (r : RestRoute) : Except Exn (List String) :=
  if r.versions.isEmpty then .error (.python "ValueError")
  else .ok (r.versions.flatMap fun version => r.paths.map (versionedPath version))

/-! ## The routing map -/

/-- A rule of the routing map, with what the routing of its endpoint says. -/
structure Rule where
  rule : String
  methods : Option (List String)
  endpoint : String
  type : String
  auth : RouteAuth
  operation : Option String
  model : Option String

/-- The methods of a rule: `routing_map()` adds `OPTIONS` to declared ones, and the router puts
them in upper case and adds `HEAD` to `GET`. -/
def ruleMethods (declared : Option (List String)) : Option (List String) :=
  declared.map fun methods =>
    let methods := if methods.contains "OPTIONS" then methods else methods ++ ["OPTIONS"]
    let methods := methods.map Py.upper
    if methods.contains "GET" && !methods.contains "HEAD" then methods ++ ["HEAD"] else methods

/-- The rule of a declaration for one of its patterns. -/
def RestRoute.rule (r : RestRoute) (pattern : String) : Rule where
  rule := pattern
  methods := ruleMethods r.methods
  endpoint := r.endpoint
  type := "ssi_rest"
  auth := r.auth
  operation := r.operation
  model := r.model

/-- The rules a declaration adds to the routing map. -/
def RestRoute.rules (r : RestRoute) : Except Exn (List Rule) := do
  let patterns ← r.expandedRoutes
  pure (patterns.map r.rule)

theorem mem_expandedRoutes {r : RestRoute} {pattern : String} :
    (∃ patterns, r.expandedRoutes = .ok patterns ∧ pattern ∈ patterns) ↔
      ∃ version ∈ r.versions, ∃ path ∈ r.paths, pattern = versionedPath version path := by
  unfold RestRoute.expandedRoutes
  split
  · next hempty =>
    rw [List.isEmpty_iff] at hempty
    constructor
    · rintro ⟨patterns, h, -⟩
      cases h
    · rintro ⟨version, hversion, -⟩
      rw [hempty] at hversion
      cases hversion
  · constructor
    · rintro ⟨patterns, h, hin⟩
      cases h
      obtain ⟨version, hversion, hin⟩ := List.mem_flatMap.mp hin
      obtain ⟨path, hpath, rfl⟩ := List.mem_map.mp hin
      exact ⟨version, hversion, path, hpath, rfl⟩
    · rintro ⟨version, hversion, path, hpath, rfl⟩
      exact ⟨_, rfl, List.mem_flatMap.mpr ⟨version, hversion, List.mem_map_of_mem hpath⟩⟩

theorem mem_rules {r : RestRoute} {rule : Rule} :
    (∃ own, r.rules = .ok own ∧ rule ∈ own) ↔
      ∃ version ∈ r.versions, ∃ path ∈ r.paths, rule = r.rule (versionedPath version path) := by
  constructor
  · rintro ⟨own, h, hin⟩
    obtain ⟨patterns, hpatterns, hown⟩ := bind_ok_iff.mp h
    cases hown
    obtain ⟨pattern, hpattern, rfl⟩ := List.mem_map.mp hin
    obtain ⟨version, hversion, path, hpath, rfl⟩ :=
      mem_expandedRoutes.mp ⟨patterns, hpatterns, hpattern⟩
    exact ⟨version, hversion, path, hpath, rfl⟩
  · rintro ⟨version, hversion, path, hpath, rfl⟩
    obtain ⟨patterns, hpatterns, hin⟩ := mem_expandedRoutes.mpr ⟨version, hversion, path, hpath, rfl⟩
    exact ⟨_, bind_ok_iff.mpr ⟨patterns, hpatterns, rfl⟩, List.mem_map_of_mem hin⟩

theorem mem_ruleMethods {declared methods : List String}
    (h : ruleMethods (some declared) = some methods) (method : String) :
    method ∈ methods ↔ method ∈ declared.map Py.upper ++ ["OPTIONS"] ∨
      method = "HEAD" ∧ "GET" ∈ declared.map Py.upper := by
  have hoptions : ∀ m, m ∈ (if declared.contains "OPTIONS" then declared
      else declared ++ ["OPTIONS"]).map Py.upper ↔ m ∈ declared.map Py.upper ++ ["OPTIONS"] := by
    intro m
    have hupper : Py.upper "OPTIONS" = "OPTIONS" := by decide +kernel
    split
    · next hin =>
      rw [List.contains_iff_mem] at hin
      rw [List.mem_append, List.mem_singleton]
      refine ⟨Or.inl, ?_⟩
      rintro (hm | rfl)
      · exact hm
      · exact List.mem_map.mpr ⟨_, hin, hupper⟩
    · rw [List.map_append, List.map_cons, hupper, List.map_nil]
  have hget : "GET" ∈ declared.map Py.upper ++ ["OPTIONS"] ↔ "GET" ∈ declared.map Py.upper := by
    rw [List.mem_append, or_iff_left (by decide)]
  unfold ruleMethods at h
  rw [Option.map_some, Option.some.injEq] at h
  rw [← hoptions, ← hget, ← hoptions, ← h]
  dsimp only
  generalize (if declared.contains "OPTIONS" then declared
    else declared ++ ["OPTIONS"]).map Py.upper = listed
  split
  · next hhead =>
    simp only [Bool.and_eq_true, List.contains_iff_mem] at hhead
    rw [List.mem_append, List.mem_singleton, and_iff_left hhead.1]
  · next hhead =>
    refine ⟨Or.inl, ?_⟩
    rintro (hm | ⟨rfl, hin⟩)
    · exact hm
    · by_contra hnot
      exact hhead (by simp [hin, hnot])

/-- A rule matches the methods it lists, or all when it lists none. -/
theorem serves_iff {r : RestRoute} {method : String} :
    r.serves method = true ↔ ∀ methods, ruleMethods r.methods = some methods → method ∈ methods := by
  unfold RestRoute.serves
  cases hmethods : r.methods with
  | none =>
    refine iff_of_true rfl ?_
    intro methods h
    cases h
  | some declared =>
    have hiff : ∀ methods, ruleMethods (some declared) = some methods → (method ∈ methods ↔ _) :=
      fun methods h => mem_ruleMethods h method
    dsimp only
    rw [Bool.or_eq_true, Bool.and_eq_true, beq_iff_eq, List.contains_iff_mem,
      List.contains_iff_mem]
    constructor
    · intro hin methods h
      exact (hiff methods h).mpr hin
    · intro h
      exact (hiff _ rfl).mp (h _ rfl)

end SsiRest
