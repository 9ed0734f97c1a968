import SsiRestApi.Errors
import SsiRestApi.Lib.Acl
import SsiRestApi.Lib.Crypt

/-!
# What the code takes from its platform

Hashing, random text and the two conversions that belong to the framework, and
the user groups the access lists name.
-/

namespace SsiRest

open Py

structure Platform where
  /-- `CryptContext(schemes=["pbkdf2_sha512"])`. -/
  crypt : CryptContext
  /-- The value of the `i`-th `secrets.token_urlsafe(32)`. -/
  tokenUrlsafe : Nat → String
  /-- `str(value)`: what a Char column keeps of a value that is no text. -/
  str : Json → String
  /-- `_append_query(url, params)`, which refuses a malformed url. -/
  appendQuery : Json → List (String × Json) → Except Exn String

/-- Generated raw values are pairwise distinct and hashes tell texts apart. -/
structure Platform.Exact (P : Platform) : Prop where
  crypt : P.crypt.Exact
  token_inj : ∀ i j, P.tokenUrlsafe i = P.tokenUrlsafe j → i = j

/-- What a Char column keeps of a parameter. -/
def Platform.charColumn (P : Platform) : Json → String
  | .str s => s
  | v => P.str v

/-- A generated raw value: a static prefix and the `i`-th random text. -/
def Platform.rawValue (P : Platform) (pre : String) (i : Nat) : String := pre ++ P.tokenUrlsafe i

theorem Platform.rawValue_ne (P : Platform) {pre : String} (hpre : pre ≠ "") (i : Nat) :
    P.rawValue pre i ≠ "" := by
  intro h
  have h := congrArg String.toList h
  unfold Platform.rawValue at h
  rw [String.toList_append, String.toList_empty] at h
  exact hpre (String.toList_eq_nil_iff.mp (List.append_eq_nil_iff.mp h).1)

theorem Platform.Exact.rawValue_inj {P : Platform} (hP : P.Exact) {pre : String} {i j : Nat}
    (h : P.rawValue pre i = P.rawValue pre j) : i = j := by
  have h := congrArg String.toList h
  unfold Platform.rawValue at h
  rw [String.toList_append, String.toList_append] at h
  exact hP.token_inj i j (String.toList_inj.mp (List.append_cancel_left h))

/-- What `verify` raises on a stored text that is no hash. -/
def hashError : Exn := .python "ValueError"

/-- A platform whose random texts share their first characters. -/
def Platform.sample : Platform where
  crypt := CryptContext.tagged
  tokenUrlsafe i := String.ofList (List.replicate 8 'A' ++ List.replicate i 'B')
  str _ := "value"
  appendQuery url _ :=
    match url with
    | .str s => .ok s
    | _ => .error (.python "TypeError")

theorem Platform.sample_exact : Platform.sample.Exact where
  crypt := CryptContext.tagged_exact
  token_inj i j h := by
    have h := congrArg (fun s => s.toList.length) h
    simp only [Platform.sample, String.toList_ofList, List.length_append,
      List.length_replicate] at h
    omega

/-! ## Groups -/

inductive Group where
  /-- `base.group_user`. -/
  | user
  /-- `base.group_system`. -/
  | system
  /-- `ssi_rest_api_key_group`. -/
  | apiKeyAdministrator
  | other (id : Nat)
  deriving DecidableEq

abbrev User := Acl.Principal Group

/-- An internal user. -/
def employee : User := ⟨7, [.user]⟩

/-- Another one. -/
def colleague : User := ⟨8, [.user]⟩

end SsiRest
