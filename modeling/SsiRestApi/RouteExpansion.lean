import Mathlib.Data.Set.Finite.Lemmas
import SsiRestApi.Lib.Iterable
import SsiRestApi.Openapi.Document

/-!
# What `rest_route` expands its paths to

`rest_route` takes a path or an iterable of paths, and passes over the iterable once for each
version.

    the patterns are those of every version and every path   iff   the paths can be passed
    over again, or there is one version only                      (expandedRoutes_product_iff)
-/

namespace SsiRest

open Py

/-- The `paths` of `rest_route`. -/
inductive RoutePaths where
  | str (path : String)
  | iterable (paths : Iterable String)

/-- `[paths]` for a text, else the iterable itself. -/
def RoutePaths.iterated : RoutePaths → Iterable String
  | str path => .collection [path]
  | iterable paths => paths

/-- `rest_route(paths, versions)`: the `expanded_routes` it registers. -/
def expandedRoutes (paths : RoutePaths) (versions : List Nat) : Except Exn (List String) :=
  if versions.isEmpty then .error (.python "ValueError")
  else .ok (nested versionedPath versions paths.iterated)

/-- The paths a declaration names. -/
def RoutePaths.items (paths : RoutePaths) : List String := paths.iterated.items

/-- A declaration whose paths can be passed over again is registered with all of them. -/
theorem expandedRoutes_eq {r : RestRoute} {paths : RoutePaths} (hitems : paths.items = r.paths)
    (hrest : paths.iterated.rest = paths.iterated) :
    expandedRoutes paths r.versions = r.expandedRoutes := by
  unfold expandedRoutes RestRoute.expandedRoutes
  rw [nested_of_rest_eq hrest, ← hitems]
  rfl

/-! ## Telling versioned paths apart -/

theorem toList_versionedPath (version : Nat) (path : String) :
    (versionedPath version path).toList =
      (pathPrefix ++ "/v").toList ++ Nat.toDigits 10 version ++ path.toList := by
  unfold versionedPath
  rw [String.toList_append, String.toList_append, Nat.toString_eq_ofList_toDigits,
    String.toList_ofList]

/-- Put after two texts, some path of a finite set tells them apart. -/
theorem exists_append_ne {α : Type} {paths : List (List α)} (hne : paths ≠ []) {a b : List α}
    (hab : a ≠ b) : ∃ p ∈ paths, ∀ q ∈ paths, a ++ p ≠ b ++ q := by
  have hnonempty : {p | p ∈ paths}.Nonempty := List.exists_mem_of_ne_nil _ hne
  rcases lt_or_ge a.length b.length with hlt | hge
  · -- the shortest path would have to be longer than another
    obtain ⟨p, hp, hmin⟩ :=
      Set.exists_min_image {p | p ∈ paths} List.length paths.finite_toSet hnonempty
    refine ⟨p, hp, fun q hq heq => ?_⟩
    have hlen := congrArg List.length heq
    rw [List.length_append, List.length_append] at hlen
    have := hmin q hq
    omega
  · -- the longest path would have to be shorter than another, or the texts are the same
    obtain ⟨p, hp, hmax⟩ :=
      Set.exists_max_image {p | p ∈ paths} List.length paths.finite_toSet hnonempty
    refine ⟨p, hp, fun q hq heq => ?_⟩
    have hlen := congrArg List.length heq
    rw [List.length_append, List.length_append] at hlen
    have := hmax q hq
    exact hab (List.append_inj heq (by omega)).1

/-- Some path of a finite set is served under a version only by a route of that version. -/
theorem exists_versionedPath_ne {paths : List String} (hne : paths ≠ []) {version other : Nat}
    (h : version ≠ other) :
    ∃ path ∈ paths, ∀ path' ∈ paths, versionedPath version path ≠ versionedPath other path' := by
  have hdigits : (pathPrefix ++ "/v").toList ++ Nat.toDigits 10 version ≠
      (pathPrefix ++ "/v").toList ++ Nat.toDigits 10 other := by
    intro heq
    have hsame := congrArg ofDecimals (List.append_cancel_left heq)
    rw [ofDecimals_toDigits, ofDecimals_toDigits] at hsame
    exact h hsame
  have hlists : paths.map String.toList ≠ [] := by simpa using hne
  obtain ⟨p, hp, hapart⟩ := exists_append_ne hlists hdigits
  obtain ⟨path, hpath, rfl⟩ := List.mem_map.mp hp
  refine ⟨path, hpath, fun path' hpath' heq => ?_⟩
  have hlist := congrArg String.toList heq
  rw [toList_versionedPath, toList_versionedPath] at hlist
  exact hapart _ (List.mem_map_of_mem hpath') hlist

/-! ## The product -/

/-- The patterns are those of every version and every path. -/
def IsProduct (paths : RoutePaths) (versions : List Nat) (routes : List String) : Prop :=
  ∀ route, route ∈ routes ↔
    ∃ version ∈ versions, ∃ path ∈ paths.items, route = versionedPath version path

theorem isProduct_flatMap (paths : RoutePaths) (versions : List Nat) :
    IsProduct paths versions
      (versions.flatMap fun version => paths.items.map (versionedPath version)) := by
  intro route
  simp only [List.mem_flatMap, List.mem_map, eq_comm]

/-- The patterns of one version are those of all, when no other version is among them. -/
theorem isProduct_map_iff {paths : RoutePaths} {version : Nat} {versions : List Nat} :
    IsProduct paths (version :: versions) (paths.items.map (versionedPath version)) ↔
      paths.items = [] ∨ ∀ other ∈ versions, other = version := by
  constructor
  · intro h
    by_contra hnot
    rw [not_or] at hnot
    obtain ⟨hitems, hsame⟩ := hnot
    obtain ⟨other, hother, hne⟩ : ∃ other ∈ versions, other ≠ version := by simpa using hsame
    obtain ⟨path, hpath, hapart⟩ := exists_versionedPath_ne hitems hne
    obtain ⟨path', hpath', heq⟩ := List.mem_map.mp
      ((h _).mpr ⟨other, List.mem_cons_of_mem _ hother, path, hpath, rfl⟩)
    exact hapart path' hpath' heq.symm
  · rintro (hitems | hsame) route
    · simp [hitems]
    · constructor
      · intro hin
        obtain ⟨path, hpath, rfl⟩ := List.mem_map.mp hin
        exact ⟨version, List.mem_cons_self, path, hpath, rfl⟩
      · rintro ⟨other, hother, path, hpath, rfl⟩
        obtain rfl : other = version := by
          rcases List.mem_cons.mp hother with rfl | hother
          · rfl
          · exact hsame other hother
        exact List.mem_map_of_mem hpath

/-- The paths can be passed over once for each version, or the versions are one. -/
def Expandable (paths : RoutePaths) (versions : List Nat) : Prop :=
  paths.iterated.rest = paths.iterated ∨
    ∀ version ∈ versions, ∀ other ∈ versions, version = other

theorem isProduct_nested_iff (paths : RoutePaths) (version : Nat) (versions : List Nat) :
    IsProduct paths (version :: versions)
      (nested versionedPath (version :: versions) paths.iterated) ↔
      Expandable paths (version :: versions) := by
  have hone : (∀ v ∈ version :: versions, ∀ other ∈ version :: versions, v = other) ↔
      ∀ other ∈ versions, other = version := by
    constructor
    · intro h other hother
      exact h other (List.mem_cons_of_mem _ hother) version List.mem_cons_self
    · intro h
      have hall : ∀ v ∈ version :: versions, v = version := List.forall_mem_cons.mpr ⟨rfl, h⟩
      intro v hv other hother
      rw [hall v hv, hall other hother]
  unfold Expandable
  rcases paths.iterated.rest_cases with hrest | hused
  · rw [nested_of_rest_eq hrest]
    exact iff_of_true (isProduct_flatMap paths _) (Or.inl hrest)
  · rw [nested_cons_of_used_up hused, hone]
    refine isProduct_map_iff.trans (or_congr ⟨?_, ?_⟩ Iff.rfl)
    · exact Iterable.rest_eq_of_items_eq_nil
    · intro hrest
      rw [hrest] at hused
      exact hused

/-- **Expansion.**  What `rest_route` registers is the product in exactly these cases; a path of
its own is always read back under its version. -/
theorem expandedRoutes_product_iff (paths : RoutePaths) {versions : List Nat}
    (hne : versions ≠ []) :
    ((∃ routes, expandedRoutes paths versions = .ok routes ∧ IsProduct paths versions routes) ∧
      ∀ version ∈ versions, ∀ path ∈ paths.items, startsWith path "/" = true →
        ∀ other, ruleMatchesVersion (versionedPath version path) other = true ↔
          version = other) ↔
      Expandable paths versions := by
  obtain ⟨version, rest, rfl⟩ := List.exists_cons_of_ne_nil hne
  rw [← isProduct_nested_iff]
  constructor
  · rintro ⟨⟨routes, hroutes, hproduct⟩, -⟩
    cases hroutes
    exact hproduct
  · intro hproduct
    refine ⟨⟨_, rfl, hproduct⟩, fun version _ path _ hpath other => ?_⟩
    exact ruleMatchesVersion_versionedPath hpath version other

theorem expandedRoutes_product_ping :
    (1 : Nat) :: [2] ≠ [] ∧ Expandable (.str "/ping") [1, 2] ∧
      ∃ routes, expandedRoutes (.str "/ping") [1, 2] = .ok routes ∧
        IsProduct (.str "/ping") [1, 2] routes :=
  ⟨by decide, Or.inl rfl,
    ((expandedRoutes_product_iff (.str "/ping") (by decide)).mpr (Or.inl rfl)).1⟩

/-- A generator of one path is used up by the first of two versions. -/
theorem expandedRoutes_generator :
    expandedRoutes (.iterable (.iterator ["/ping"])) [1, 2] = .ok ["/api/v1/ping"] ∧
      ¬ IsProduct (.iterable (.iterator ["/ping"])) [1, 2] ["/api/v1/ping"] := by
  refine ⟨by rfl, fun h => ?_⟩
  have hin := (h "/api/v2/ping").mpr ⟨2, by decide, "/ping", List.mem_cons_self, by decide⟩
  exact absurd hin (by decide)

end SsiRest
