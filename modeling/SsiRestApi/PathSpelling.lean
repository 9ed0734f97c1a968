import SsiRestApi.ProfileScope

/-!
# Spellings of a path

The router maps several spellings of a path to one rule with the same arguments; the
dispatcher matches the path patterns of access profiles against the text as it was
sent.

    two spellings are decided alike ↔ the user has no profiles, or some profile lets
      each of them, or none lets either
    all spellings are decided alike under all profiles ↔ no rule is reached with the
      same arguments by two spellings                             (spelling_iff)
-/

namespace SsiRest

open Py Tx

/-- `routing_map().bind(…)`. -/
structure Router where
  /-- `match(path, method)`: the rule and its arguments. -/
  resolve : String → String → Option (Route × Kw)

/-- A path converter at the end of a rule takes what is left of the path. -/
def Route.endsInPath (route : Route) : Prop :=
  ∃ before name : String, route.rule = before ++ "<path:" ++ name ++ ">"

/-- `strict_slashes=False`: a slash may be appended to a path. -/
def Router.LaxSlashes (R : Router) : Prop :=
  ∀ method path route args, R.resolve method path = some (route, args) → ¬ route.endsInPath →
    ¬ path.toList.getLast? = some '/' → R.resolve method (path ++ "/") = some (route, args)

/-- Two requests reach one rule with the same arguments and method. -/
structure RoutedAlike (R : Router) (q q' : HttpRequest) (route : Route) (args : Kw) : Prop where
  first : R.resolve q.method q.path = some (route, args)
  second : R.resolve q'.method q'.path = some (route, args)
  method : q.method = q'.method

/-- Requests that are routed alike are decided alike. -/
def SpellingBlind (R : Router) : Prop :=
  ∀ db uid q q' route args, RoutedAlike R q q' route args →
    enforceAccessProfile db uid (route.describe q) =
      enforceAccessProfile db uid (route.describe q')

/-- One spelling for each rule, arguments and method. -/
def Router.Canonical (R : Router) : Prop :=
  ∀ method path path' route args, R.resolve method path = some (route, args) →
    R.resolve method path' = some (route, args) → path = path'

/-- The user's profiles let both requests through or neither. -/
def LetAlike (db : Database) (uid : Nat) (d d' : RequestDescription) : Prop :=
  ∀ user, findAccount db.users uid = .ok user →
    getApplicableProfiles db.profiles (user.principal uid) = [] ∨
      ((∃ p ∈ getApplicableProfiles db.profiles (user.principal uid), p.val.Lets d) ↔
        ∃ p ∈ getApplicableProfiles db.profiles (user.principal uid), p.val.Lets d')

theorem enforceAccessProfile_eq_iff {db : Database} {uid : Nat} {d d' : RequestDescription} :
    enforceAccessProfile db uid d = enforceAccessProfile db uid d' ↔ LetAlike db uid d d' := by
  unfold enforceAccessProfile LetAlike
  cases hacc : findAccount db.users uid with
  | error e => simp
  | ok user =>
    have hiff : checkRequestAccess db.profiles (user.principal uid) d =
        checkRequestAccess db.profiles (user.principal uid) d' ↔
          getApplicableProfiles db.profiles (user.principal uid) = [] ∨
          ((∃ p ∈ getApplicableProfiles db.profiles (user.principal uid), p.val.Lets d) ↔
            ∃ p ∈ getApplicableProfiles db.profiles (user.principal uid), p.val.Lets d') := by
      rw [Bool.eq_iff_iff, checkRequestAccess_iff, checkRequestAccess_iff]
      by_cases hnone : getApplicableProfiles db.profiles (user.principal uid) = []
      · simp [hnone]
      · simp only [hnone, false_or]
    simp only [Except.ok.injEq, forall_eq']
    rw [← hiff]
    cases checkRequestAccess db.profiles (user.principal uid) d <;>
      cases checkRequestAccess db.profiles (user.principal uid) d' <;>
      simp [RestAuthError]

/-! ## A profile for one spelling -/

/-- A rule for the requests with exactly this path. -/
def onlyPathRule (path : String) : ProfileRule where
  sequence := 1
  effect := .allow
  pathPattern := some (String.ofList (Fnmatch.escape path.toList))
  invert := false
  httpMethods := none
  modelPattern := none
  operation := .any

/-- User 7 has a profile that allows one path and denies all others. -/
def onlyPathDatabase (path : String) : Database :=
  { archivedDatabase with
    profiles := [⟨1, ⟨true, .deny, [onlyPathRule path], [7], []⟩⟩] }

theorem matchesRequest_onlyPathRule {path : String} (hpath : path ≠ "")
    (d : RequestDescription) : (onlyPathRule path).matchesRequest d = (d.path == path) := by
  have hne : String.ofList (Fnmatch.escape path.toList) ≠ "" := by
    intro h
    have hmatch := fnmatchcase_escape "" path
    rw [h] at hmatch
    exact hpath (beq_iff_eq.mp hmatch.symm).symm
  simp [ProfileRule.matchesRequest, onlyPathRule, filledIn, hne, fnmatchcase_escape]

/-- The user's request passes when it has that path. -/
theorem enforceAccessProfile_onlyPath {path : String} (hpath : path ≠ "")
    (d : RequestDescription) :
    enforceAccessProfile (onlyPathDatabase path) 7 d =
      if d.path = path then .ok (account "employee" true)
      else .error (RestAuthError "access_denied" "You are not allowed to perform this action."
        403) := by
  have hfound : findAccount (onlyPathDatabase path).users 7 = .ok (account "employee" true) := rfl
  have happlicable : getApplicableProfiles (onlyPathDatabase path).profiles
      ((account "employee" true).principal 7) = (onlyPathDatabase path).profiles := rfl
  have hevaluate : (⟨true, .deny, [onlyPathRule path], [7], []⟩ : AccessProfile).evaluateRequest d =
      (d.path == path) := by
    have hsorted : (⟨true, .deny, [onlyPathRule path], [7], []⟩ : AccessProfile).sortedRules =
        [onlyPathRule path] := rfl
    rw [AccessProfile.evaluateRequest, hsorted, List.find?_cons, matchesRequest_onlyPathRule hpath]
    cases d.path == path <;> rfl
  unfold enforceAccessProfile checkRequestAccess
  rw [hfound]
  simp only [happlicable]
  simp [onlyPathDatabase, hevaluate]

/-- A router on whose rules a profile can be told a spelling apart decides them apart. -/
theorem path_eq_of_spellingBlind {R : Router} (hblind : SpellingBlind R) {method path path' : String}
    {route : Route} {args : Kw} (h : R.resolve method path = some (route, args))
    (h' : R.resolve method path' = some (route, args)) (hpath : path ≠ "") : path' = path := by
  have heq := hblind (onlyPathDatabase path) 7 { keyedRequest with method := method, path := path }
    { keyedRequest with method := method, path := path' } route args ⟨h, h', rfl⟩
  rw [enforceAccessProfile_onlyPath hpath, enforceAccessProfile_onlyPath hpath] at heq
  by_contra hne
  simp [Route.describe, hne] at heq

/-- **Spellings.**  Two requests for a route are decided alike exactly when the user has no
profiles, or some profile lets each of them, or none lets either; and all spellings of the paths
of a router are decided alike under all profiles exactly when it has no second spelling of
any. -/
theorem spelling_iff (R : Router) :
    (∀ db uid q q' (route : Route), enforceAccessProfile db uid (route.describe q) =
        enforceAccessProfile db uid (route.describe q') ↔
      LetAlike db uid (route.describe q) (route.describe q')) ∧
    (SpellingBlind R ↔ R.Canonical) := by
  refine ⟨fun db uid q q' route => enforceAccessProfile_eq_iff, ?_, ?_⟩
  · intro hblind method path path' route args h h'
    by_cases hpath : path = ""
    · by_cases hpath' : path' = ""
      · rw [hpath, hpath']
      · exact path_eq_of_spellingBlind hblind h' h hpath'
    · exact (path_eq_of_spellingBlind hblind h h' hpath).symm
  · intro hcanonical db uid q q' route args halike
    have hpath : q.path = q'.path := hcanonical q.method q.path q'.path route args halike.first
      (by rw [halike.method]; exact halike.second)
    unfold Route.describe
    rw [hpath, halike.method]

/-! ## A denied path with a slash appended -/

def pingRoute : Route := ⟨"/api/v1/ping", .core "public", [], none, some "ping"⟩

/-- Routes one path, with and without a slash at the end. -/
def pingRouter : Router where
  resolve _ path :=
    if path = "/api/v1/ping" ∨ path = "/api/v1/ping/" then some (pingRoute, []) else none

theorem pingRouter_laxSlashes : pingRouter.LaxSlashes := by
  intro method path route args h _ hslash
  unfold pingRouter at h ⊢
  dsimp only at h ⊢
  split at h
  · next hpath =>
    rcases hpath with rfl | rfl
    · exact h
    · exact absurd (by decide) hslash
  · cases h

/-- A profile that denies one path and allows all others. -/
def denyPingDatabase : Database :=
  { archivedDatabase with
    profiles := [⟨1, ⟨true, .allow,
      [⟨1, .deny, some "/api/v1/ping", false, none, none, .any⟩], [7], []⟩⟩] }

def pingRequest (path : String) : HttpRequest := { keyedRequest with path := path, headers := [] }

/-- The denied path is refused, and allowed with a slash at its end. -/
theorem not_spellingBlind : pingRouter.LaxSlashes ∧ ¬ SpellingBlind pingRouter := by
  refine ⟨pingRouter_laxSlashes, fun hblind => ?_⟩
  have halike : RoutedAlike pingRouter (pingRequest "/api/v1/ping") (pingRequest "/api/v1/ping/")
      pingRoute [] := ⟨by rfl, by rfl, rfl⟩
  have heq := hblind denyPingDatabase 7 _ _ pingRoute [] halike
  have hdenied : enforceAccessProfile denyPingDatabase 7
      (pingRoute.describe (pingRequest "/api/v1/ping")) =
        .error (RestAuthError "access_denied" "You are not allowed to perform this action." 403) :=
    rfl
  have hallowed : enforceAccessProfile denyPingDatabase 7
      (pingRoute.describe (pingRequest "/api/v1/ping/")) = .ok (account "employee" true) := rfl
  rw [hdenied, hallowed] at heq
  cases heq

end SsiRest
