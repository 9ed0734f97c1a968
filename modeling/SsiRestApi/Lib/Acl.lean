import Mathlib.Data.List.Basic

/-!
# Access lists and record rules

How a model's access list (who may do what with the model) and its record rules
(with which records) combine: global rules all hold, and of the rules of the
caller's groups, when there are any, at least one holds.

    permits u mode r ↔ an access entry grants mode, every global rule admits r
                       and some rule of u's groups does     (permits_iff)
-/

namespace Acl

inductive Mode where
  | read
  | write
  | create
  | unlink
  deriving DecidableEq

/-- A caller: the user id and every group the user is in, implied ones included. -/
structure Principal (Γ : Type) where
  uid : Nat
  groups : List Γ
  deriving DecidableEq

/-- One access entry; without a group it is everyone's. -/
structure Access (Γ : Type) where
  group : Option Γ
  modes : List Mode

/-- One record rule; without groups it is global. -/
structure Rule (Γ ρ : Type) where
  groups : List Γ
  modes : List Mode
  domain : Principal Γ → ρ → Bool

structure Security (Γ ρ : Type) where
  access : List (Access Γ)
  rules : List (Rule Γ ρ)

variable {Γ ρ : Type} [DecidableEq Γ]

def Access.grants (a : Access Γ) (u : Principal Γ) (mode : Mode) : Bool :=
  a.modes.contains mode && (a.group.all fun g => u.groups.contains g)

namespace Security

variable (S : Security Γ ρ)

def hasAccess (u : Principal Γ) (mode : Mode) : Bool :=
  S.access.any fun a => a.grants u mode

def globalRules (mode : Mode) : List (Rule Γ ρ) :=
  S.rules.filter fun r => r.modes.contains mode && r.groups.isEmpty

/-- The rules of the caller's groups. -/
def groupRules (u : Principal Γ) (mode : Mode) : List (Rule Γ ρ) :=
  S.rules.filter fun r => r.modes.contains mode && r.groups.any fun g => u.groups.contains g

def passesRules (u : Principal Γ) (mode : Mode) (r : ρ) : Bool :=
  ((S.globalRules mode).all fun rule => rule.domain u r) &&
    ((S.groupRules u mode).isEmpty || (S.groupRules u mode).any fun rule => rule.domain u r)

def permits (u : Principal Γ) (mode : Mode) (r : ρ) : Bool :=
  S.hasAccess u mode && S.passesRules u mode r

variable {S}

theorem permits_iff {u : Principal Γ} {mode : Mode} {r : ρ} :
    S.permits u mode r = true ↔ (∃ a ∈ S.access, a.grants u mode = true) ∧
      (∀ rule ∈ S.globalRules mode, rule.domain u r = true) ∧
      (S.groupRules u mode = [] ∨ ∃ rule ∈ S.groupRules u mode, rule.domain u r = true) := by
  simp [permits, hasAccess, passesRules]

end Security

end Acl
