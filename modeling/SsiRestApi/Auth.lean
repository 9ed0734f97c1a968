import SsiRestApi.Lib.Tx
import SsiRestApi.Platform

/-!
# Users, and what a provider returns

The part of `res.users` the API reads, and the contract of
`mixin.rest_authenticator`: a provider's `_rest_auth_verify` returns a result or
raises.
-/

namespace SsiRest

open Tx

/-- `res.users`. -/
structure Account where
  login : String
  email : Option String
  active : Bool
  /-- `all_group_ids`: implied groups included. -/
  allGroups : List Group
  companyId : Nat
  companyIds : List Nat
  ssiRestEnabled : Bool
  deriving DecidableEq

abbrev Accounts := List (Row Account)

def isActive (users : Accounts) (uid : Nat) : Bool :=
  users.any fun u => u.id == uid && u.val.active

/-- `search(domain, limit=1)` on `res.users`, which leaves archived users out. -/
def searchUser (users : Accounts) (domain : Account → Bool) : Option (Row Account) :=
  users.find? fun u => u.val.active && domain u.val

theorem isActive_of_searchUser {users : Accounts} {domain : Account → Bool} {user : Row Account}
    (h : searchUser users domain = some user) : isActive users user.id = true := by
  have hu := List.find?_some h
  simp only [Bool.and_eq_true] at hu
  exact List.any_eq_true.mpr ⟨user, List.mem_of_find?_eq_some h, by simp [hu.1]⟩

/-- `RestAuthResult`. -/
structure RestAuthResult where
  uid : Nat
  scheme : String
  profileIds : List Nat
  scopes : List String
  expiresAt : Option Int
  deriving DecidableEq

/-- `RestAuthResult(uid, scheme)`. -/
def RestAuthResult.ofUser (uid : Nat) (scheme : String) : RestAuthResult :=
  ⟨uid, scheme, [], [], none⟩

def invalidCredential (message : String) : Exn :=
  RestAuthError "invalid_credential" message 401

/-- The only `RestAuthError` of a provider that verifies says that the credential is invalid. -/
def RefusesAsInvalid {α : Type} (x : Except Exn α) : Prop :=
  ∀ errorCode description status headers,
    x = .error (.restAuthError errorCode description status headers) →
      errorCode = "invalid_credential"

theorem refusesAsInvalid_ok {α : Type} (a : α) : RefusesAsInvalid (.ok a) :=
  fun _ _ _ _ h => by cases h

theorem refusesAsInvalid_python {α : Type} (type : String) :
    RefusesAsInvalid (.error (.python type) : Except Exn α) :=
  fun _ _ _ _ h => by cases h

theorem refusesAsInvalid_invalidCredential {α : Type} (message : String) :
    RefusesAsInvalid (.error (invalidCredential message) : Except Exn α) := by
  intro errorCode description status headers h
  cases h
  rfl

end SsiRest
