import Mathlib.Data.List.Sort
import SsiRestApi.Auth
import SsiRestApi.Lib.Fnmatch

/-!
# Access profiles

`ssi_rest_access_profile` and its rules: the first matching rule in sequence order
decides, else the profile's default effect; a user with applicable profiles passes
when one of them allows.

    a profile allows ↔ its first matching rule does, or none matches and its default does
                                                             (evaluateRequest_iff)
-/

namespace SsiRest

open Py Tx

inductive AccessEffect where
  | allow
  | deny
  deriving DecidableEq

inductive Operation where
  | read
  | write
  | create
  | unlink
  | call
  | any
  deriving DecidableEq

def Operation.code : Operation → String
  | read => "read"
  | write => "write"
  | create => "create"
  | unlink => "unlink"
  | call => "call"
  | any => "any"

/-- `ssi_rest_access_profile.rule`. -/
structure ProfileRule where
  sequence : Int
  effect : AccessEffect
  pathPattern : Option String
  invert : Bool
  httpMethods : Option String
  modelPattern : Option String
  operation : Operation
  deriving DecidableEq

/-- What a rule is matched against. -/
structure RequestDescription where
  path : String
  httpMethod : String
  model : Option String
  operation : Option String
  deriving DecidableEq

/-- The value of a Char field that is filled in. -/
def filledIn (value : Option String) : Option String := value.filter (· ≠ "")

/-- The methods of a comma-separated list. -/
def methodList (httpMethods : String) : List String :=
  ((splitOn ',' httpMethods).filter fun m => strip m ≠ "").map fun m => upper (strip m)

/-- `_matches_request`. -/
def ProfileRule.matchesRequest (rule : ProfileRule) (d : RequestDescription) : Bool :=
  let pathMatched := (filledIn rule.pathPattern).all fun p => fnmatchcase d.path p
  (pathMatched != rule.invert) &&
    ((filledIn rule.httpMethods).all fun m => (methodList m).contains (upper d.httpMethod)) &&
    ((filledIn rule.modelPattern).all fun p => fnmatchcase (d.model.getD "") p) &&
    (rule.operation == .any || d.operation == some rule.operation.code)

/-- `ssi_rest_access_profile`, with its rules as they are fetched. -/
structure AccessProfile where
  active : Bool
  defaultEffect : AccessEffect
  ruleIds : List ProfileRule
  userIds : List Nat
  groupIds : List Group
  deriving DecidableEq

abbrev Profiles := List (Row AccessProfile)

namespace AccessProfile

/-- `rule_ids.sorted("sequence")`, a stable sort. -/
def sortedRules (p : AccessProfile) : List ProfileRule :=
  p.ruleIds.insertionSort fun r r' => r.sequence ≤ r'.sequence

/-- `_evaluate_request`. -/
def evaluateRequest (p : AccessProfile) (d : RequestDescription) : Bool :=
  match p.sortedRules.find? fun rule => rule.matchesRequest d with
  | some rule => rule.effect == .allow
  | none => p.defaultEffect == .allow

/-- The first rule in sequence order that matches allows, or none matches and the default effect
does. -/
def LetsBy (p : AccessProfile) (matching : ProfileRule → Bool) : Prop :=
  (∃ before rule after, p.sortedRules = before ++ rule :: after ∧
    (∀ r ∈ before, matching r = false) ∧ matching rule = true ∧ rule.effect = .allow) ∨
  ((∀ r ∈ p.sortedRules, matching r = false) ∧ p.defaultEffect = .allow)

/-- The profile lets a request through. -/
def Lets (p : AccessProfile) (d : RequestDescription) : Prop :=
  p.LetsBy fun rule => rule.matchesRequest d

theorem evaluateRequest_iff {p : AccessProfile} {d : RequestDescription} :
    p.evaluateRequest d = true ↔ p.Lets d := by
  unfold evaluateRequest Lets LetsBy
  cases h : p.sortedRules.find? fun rule => rule.matchesRequest d with
  | some rule =>
    obtain ⟨hmatch, before, after, hsplit, hbefore⟩ := List.find?_eq_some_iff_append.mp h
    have hfirst : ∀ r ∈ before, r.matchesRequest d = false := by simpa using hbefore
    rw [beq_iff_eq]
    constructor
    · intro heffect
      exact Or.inl ⟨before, rule, after, hsplit, hfirst, hmatch, heffect⟩
    · rintro (⟨before', rule', after', hsplit', hfirst', hmatch', heffect⟩ | ⟨hnone, -⟩)
      · have hfind : p.sortedRules.find? (fun rule => rule.matchesRequest d) = some rule' :=
          List.find?_eq_some_iff_append.mpr ⟨hmatch', before', after', hsplit', by
            simpa using hfirst'⟩
        obtain rfl := Option.some.inj (h.symm.trans hfind)
        exact heffect
      · cases (hnone rule (List.mem_of_find?_eq_some h)).symm.trans hmatch
  | none =>
    have hnone : ∀ r ∈ p.sortedRules, r.matchesRequest d = false := by
      simpa using List.find?_eq_none.mp h
    rw [beq_iff_eq]
    constructor
    · exact fun hdefault => Or.inr ⟨hnone, hdefault⟩
    · rintro (⟨before, rule, after, hsplit, -, hmatch, -⟩ | ⟨-, hdefault⟩)
      · cases (hnone rule (by simp [hsplit])).symm.trans hmatch
      · exact hdefault

theorem mem_sortedRules {p : AccessProfile} {rule : ProfileRule} :
    rule ∈ p.sortedRules ↔ rule ∈ p.ruleIds := List.mem_insertionSort _

/-- Two matchings that agree on the rules of a profile let alike. -/
theorem letsBy_congr {p : AccessProfile} {f g : ProfileRule → Bool}
    (h : ∀ rule ∈ p.ruleIds, f rule = g rule) : p.LetsBy f ↔ p.LetsBy g := by
  have hlets : ∀ {f g : ProfileRule → Bool}, (∀ rule ∈ p.sortedRules, f rule = g rule) →
      p.LetsBy f → p.LetsBy g := by
    rintro f g h (⟨before, rule, after, hsplit, hbefore, hmatch, heffect⟩ | ⟨hnone, hdefault⟩)
    · refine Or.inl ⟨before, rule, after, hsplit, fun r hr => ?_, ?_, heffect⟩
      · rw [← h r (by simp [hsplit, hr]), hbefore r hr]
      · rw [← h rule (by simp [hsplit]), hmatch]
    · exact Or.inr ⟨fun r hr => by rw [← h r hr, hnone r hr], hdefault⟩
  exact ⟨hlets fun rule hrule => h rule (mem_sortedRules.mp hrule),
    hlets fun rule hrule => (h rule (mem_sortedRules.mp hrule)).symm⟩

end AccessProfile

/-- `_get_applicable_profiles(user)`. -/
def getApplicableProfiles (profiles : Profiles) (user : User) : Profiles :=
  profiles.filter fun p => p.val.active &&
    (p.val.userIds.contains user.uid || p.val.groupIds.any fun g => user.groups.contains g)

/-- `_check_request_access(user, …)`. -/
def checkRequestAccess (profiles : Profiles) (user : User) (d : RequestDescription) : Bool :=
  let applicable := getApplicableProfiles profiles user
  applicable.isEmpty || applicable.any fun p => p.val.evaluateRequest d

/-- A request is refused when the user has profiles and every one denies it. -/
theorem checkRequestAccess_eq_false_iff {profiles : Profiles} {user : User}
    {d : RequestDescription} :
    checkRequestAccess profiles user d = false ↔
      getApplicableProfiles profiles user ≠ [] ∧
        ∀ p ∈ getApplicableProfiles profiles user, p.val.evaluateRequest d = false := by
  simp [checkRequestAccess]

/-- A request passes when the user has no profiles, or one of them lets it. -/
theorem checkRequestAccess_iff {profiles : Profiles} {user : User} {d : RequestDescription} :
    checkRequestAccess profiles user d = true ↔ getApplicableProfiles profiles user = [] ∨
      ∃ p ∈ getApplicableProfiles profiles user, p.val.Lets d := by
  simp [checkRequestAccess, AccessProfile.evaluateRequest_iff]

end SsiRest
