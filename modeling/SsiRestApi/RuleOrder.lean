import SsiRestApi.AccessProfile
import SsiRestApi.Lib.FirstMatch

/-!
# The order of a profile's rules

`_evaluate_request` sorts the rules by `sequence` before it looks for the first match,
so that the order in which they are fetched is not to matter.  The sort is stable and
`sequence` need not be unique: among rules of one sequence number the fetch order still
decides.
-/

namespace SsiRest.AccessProfile

open Py Tx FirstMatch

/-- The profile with its rules fetched in another order. -/
def withRules (p : AccessProfile) (rules : List ProfileRule) : AccessProfile :=
  { p with ruleIds := rules }

/-- A rule that matches, of the lowest sequence number among those that do. -/
def Decisive (p : AccessProfile) (d : RequestDescription) (rule : ProfileRule) : Prop :=
  Lowest ProfileRule.sequence (fun rule => rule.matchesRequest d) p.ruleIds rule

/-- The decision is the effect of a matching rule of lowest sequence number, or the default
effect when no rule matches. -/
def Decides (p : AccessProfile) (d : RequestDescription) (allow : Bool) : Prop :=
  (∃ rule, p.Decisive d rule ∧ allow = (rule.effect == .allow)) ∨
    ((∀ rule ∈ p.ruleIds, rule.matchesRequest d = false) ∧
      allow = (p.defaultEffect == .allow))

/-- Every two orders of the rules give one decision, the one the sequence numbers call for. -/
def OrderFree (p : AccessProfile) (d : RequestDescription) : Prop :=
  ∀ rules₁ rules₂ : List ProfileRule, rules₁.Perm p.ruleIds → rules₂.Perm p.ruleIds →
    (p.withRules rules₁).evaluateRequest d = (p.withRules rules₂).evaluateRequest d ∧
      p.Decides d ((p.withRules rules₁).evaluateRequest d)

theorem sortedRules_eq (p : AccessProfile) :
    p.sortedRules = sorted ProfileRule.sequence p.ruleIds := rfl

theorem evaluateRequest_eq (p : AccessProfile) (d : RequestDescription) :
    p.evaluateRequest d =
      (((find ProfileRule.sequence (fun rule => rule.matchesRequest d) p.ruleIds).map
        ProfileRule.effect).getD p.defaultEffect == .allow) := by
  unfold evaluateRequest find
  rw [sortedRules_eq]
  cases (sorted ProfileRule.sequence p.ruleIds).find? fun rule => rule.matchesRequest d <;> rfl

/-- In whatever order the rules are fetched, the decision is one the sequence numbers call
for. -/
theorem decides_evaluateRequest {p : AccessProfile} {d : RequestDescription}
    {rules : List ProfileRule} (h : rules.Perm p.ruleIds) :
    p.Decides d ((p.withRules rules).evaluateRequest d) := by
  rw [evaluateRequest_eq]
  cases hfind : find ProfileRule.sequence (fun rule => rule.matchesRequest d)
      (p.withRules rules).ruleIds with
  | none =>
    refine Or.inr ⟨fun rule hrule => ?_, rfl⟩
    exact find_eq_none_iff.mp hfind rule (h.mem_iff.mpr hrule)
  | some rule =>
    exact Or.inl ⟨rule, (lowest_perm h).mp (lowest_of_find hfind), rfl⟩

/-- Matching rules of lowest sequence number that have one effect leave nothing to the fetch
order. -/
theorem orderFree_of_agree {p : AccessProfile} {d : RequestDescription}
    (h : ∀ rule rule', p.Decisive d rule → p.Decisive d rule' → rule.effect = rule'.effect) :
    p.OrderFree d := by
  intro rules₁ rules₂ hperm₁ hperm₂
  have hfree := (find_order_free_iff ProfileRule.effect).mpr h rules₁ rules₂ hperm₁ hperm₂
  refine ⟨?_, decides_evaluateRequest hperm₁⟩
  simp only [evaluateRequest_eq, withRules, hfree]

/-- The fetch order does not matter exactly when the matching rules of lowest sequence number
have one effect. -/
theorem orderFree_iff (p : AccessProfile) (d : RequestDescription) :
    p.OrderFree d ↔
      ∀ rule rule', p.Decisive d rule → p.Decisive d rule' → rule.effect = rule'.effect := by
  constructor
  · intro h rule rule' hrule hrule'
    obtain ⟨rules₁, hperm₁, hfind₁⟩ := exists_perm_find hrule
    obtain ⟨rules₂, hperm₂, hfind₂⟩ := exists_perm_find hrule'
    have heq := (h rules₁ rules₂ hperm₁ hperm₂).1
    simp only [evaluateRequest_eq, withRules, hfind₁, hfind₂, Option.map_some,
      Option.getD_some] at heq
    revert heq
    cases rule.effect <;> cases rule'.effect <;> decide
  · exact orderFree_of_agree

/-- Two rules of one sequence number and different effects: the one fetched first decides. -/
theorem not_orderFree_of_tie :
    ¬ OrderFree
      ⟨true, .allow,
        [⟨10, .allow, none, false, none, none, .any⟩, ⟨10, .deny, none, false, none, none, .any⟩],
        [], []⟩
      ⟨"/api/v1/orm/res.partner", "GET", none, none⟩ := by
  intro h
  have heq := (h _ _ (List.Perm.refl _) (List.Perm.swap _ _ [])).1
  revert heq
  decide

end SsiRest.AccessProfile
