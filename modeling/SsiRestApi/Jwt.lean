import SsiRestApi.Auth

/-!
# The jwt provider

`ssi_rest_jwt_issuer` and `_rest_auth_verify` of `ssi_rest_auth_jwt`: the first
issuer named by the token whose verification succeeds resolves the user.  Decoding
and the key sets of the issuers are the JWT library's.
-/

namespace SsiRest.Jwt

open Py Tx

inductive MatchField where
  | login
  | email
  deriving DecidableEq

/-- `ssi_rest_jwt_issuer`. -/
structure Issuer where
  active : Bool
  issuer : String
  audience : String
  algorithm : String
  jwksUrl : Option String
  sharedSecret : Option String
  userClaim : String
  userMatchField : MatchField
  leeway : Int
  profileId : Option Nat
  deriving DecidableEq

/-- What the library raises: its base error, its key set client's error, or anything else. -/
inductive LibraryError where
  | pyJwtError
  | pyJwkClientError
  | other (type : String)
  deriving DecidableEq

inductive SigningKey where
  | sharedSecret (secret : Option String)
  | jwk (key : String)
  deriving DecidableEq

/-- The claims of a token: a JSON object. -/
abbrev Claims := Kw

structure Library where
  /-- `jwt.decode(token, options={"verify_signature": False})`. -/
  decodeUnverified : String → Except LibraryError Claims
  /-- `jwt.decode(token, key, …)` at a time. -/
  decode : Int → String → SigningKey → Issuer → Except LibraryError Claims
  /-- `get_client(issuer.id, issuer.jwks_url).get_signing_key_from_jwt(token).key`. -/
  signingKey : Nat → Option String → String → Except LibraryError String

def invalidToken : Exn := invalidCredential "Invalid or expired token."

/-- An error that no handler catches. -/
def LibraryError.exn : LibraryError → Exn
  | pyJwtError => .python "PyJWTError"
  | pyJwkClientError => .python "PyJWKClientError"
  | other type => .python type

variable (L : Library)

/-- What `except PyJWTError` makes of a result. -/
def catchPyJwtError {α : Type} : Except LibraryError α → Except Exn α
  | .ok a => .ok a
  | .error .pyJwtError => .error invalidToken
  | .error .pyJwkClientError => .error invalidToken
  | .error (.other type) => .error (.python type)

/-- `_peek_unverified_claims`. -/
def peekUnverifiedClaims (token : String) : Except Exn Claims :=
  catchPyJwtError (L.decodeUnverified token)

/-- `_resolve_signing_key`. -/
def resolveSigningKey (issuer : Row Issuer) (token : String) : Except Exn SigningKey :=
  if startsWith issuer.val.algorithm "HS" then .ok (.sharedSecret issuer.val.sharedSecret)
  else match L.signingKey issuer.id issuer.val.jwksUrl token with
    | .ok key => .ok (.jwk key)
    | .error .pyJwkClientError => .error invalidToken
    | .error e => .error e.exn

/-- The user's value of the field an issuer matches. -/
def MatchField.matches (field : MatchField) (value : Json) (user : Account) : Bool :=
  match field with
  | .login => value.isStr user.login
  | .email => user.email.any fun email => value.isStr email

/-- `_resolve_user_result`. -/
def resolveUserResult (users : Accounts) (issuer : Row Issuer) (claims : Claims) :
    Except Exn RestAuthResult :=
  let claimValue := claims.get issuer.val.userClaim
  if !claimValue.truthy then .error invalidToken
  else match searchUser users (issuer.val.userMatchField.matches claimValue) with
    | none => .error invalidToken
    | some user => .ok { RestAuthResult.ofUser user.id "jwt" with
        profileIds := issuer.val.profileId.toList }

/-- `_verify_against_issuer`. -/
def verifyAgainstIssuer (users : Accounts) (now : Int) (token : String) (issuer : Row Issuer) :
    Except Exn RestAuthResult :=
  match resolveSigningKey L issuer token with
  | .error e => .error e
  | .ok key =>
    match catchPyJwtError (L.decode now token key issuer.val) with
    | .error e => .error e
    | .ok claims => resolveUserResult users issuer claims

/-- The loop over the candidates: the next one on a `RestAuthError`, any other exception
ends it. -/
def verifyAgainst (users : Accounts) (now : Int) (token : String) :
    List (Row Issuer) → Except Exn RestAuthResult
  | [] => .error invalidToken
  | issuer :: issuers =>
    match verifyAgainstIssuer L users now token issuer with
    | .ok result => .ok result
    | .error (.restAuthError ..) => verifyAgainst users now token issuers
    | .error e => .error e

/-- `search([("issuer", "=", iss)])`. -/
def candidates (issuers : List (Row Issuer)) (claims : Claims) : List (Row Issuer) :=
  issuers.filter fun i => i.val.active && (claims.get "iss").isStr i.val.issuer

/-- `_rest_auth_verify(credential)`. -/
def restAuthVerify (users : Accounts) (issuers : List (Row Issuer)) (now : Int)
    (credential : String) : Except Exn RestAuthResult :=
  match peekUnverifiedClaims L credential with
  | .error e => .error e
  | .ok claims => verifyAgainst L users now credential (candidates issuers claims)

/-- The first of the issuers to verify the token, past issuers that refuse it. -/
def Selects (users : Accounts) (now : Int) (token : String) (issuers : List (Row Issuer))
    (issuer : Row Issuer) (result : RestAuthResult) : Prop :=
  ∃ before after, issuers = before ++ issuer :: after ∧
    verifyAgainstIssuer L users now token issuer = .ok result ∧
    ∀ i ∈ before, ∃ errorCode description status headers,
      verifyAgainstIssuer L users now token i =
        .error (.restAuthError errorCode description status headers)

variable {L}

theorem verifyAgainstIssuer_ok {users : Accounts} {now : Int} {token : String}
    {issuer : Row Issuer} {result : RestAuthResult}
    (h : verifyAgainstIssuer L users now token issuer = .ok result) :
    isActive users result.uid = true ∧ result.profileIds = issuer.val.profileId.toList := by
  unfold verifyAgainstIssuer at h
  split at h
  · cases h
  · split at h
    · cases h
    · unfold resolveUserResult at h
      dsimp only at h
      split at h
      · cases h
      · split at h
        · cases h
        · next user huser =>
          cases h
          exact ⟨isActive_of_searchUser huser, rfl⟩

theorem verifyAgainst_ok_iff {users : Accounts} {now : Int} {token : String}
    {issuers : List (Row Issuer)} {result : RestAuthResult} :
    verifyAgainst L users now token issuers = .ok result ↔
      ∃ issuer, Selects L users now token issuers issuer result := by
  induction issuers with
  | nil => simp [verifyAgainst, Selects]
  | cons i issuers ih =>
    unfold verifyAgainst
    constructor
    · intro h
      split at h
      · next hv =>
        cases h
        exact ⟨i, [], issuers, rfl, hv, by simp⟩
      · next hv =>
        obtain ⟨issuer, before, after, rfl, hok, hrefuse⟩ := ih.mp h
        refine ⟨issuer, i :: before, after, rfl, hok, fun j hj => ?_⟩
        rcases List.mem_cons.mp hj with rfl | hj
        · exact ⟨_, _, _, _, hv⟩
        · exact hrefuse j hj
      · cases h
    · rintro ⟨issuer, before, after, he, hok, hrefuse⟩
      cases before with
      | nil =>
        cases he
        rw [hok]
      | cons j before =>
        cases he
        obtain ⟨errorCode, description, status, headers, hv⟩ := hrefuse i List.mem_cons_self
        rw [hv]
        exact ih.mpr ⟨issuer, before, after, rfl, hok,
          fun k hk => hrefuse k (List.mem_cons_of_mem _ hk)⟩

/-- A token resolves the user its first willing issuer finds. -/
theorem restAuthVerify_ok_iff {users : Accounts} {issuers : List (Row Issuer)} {now : Int}
    {credential : String} {result : RestAuthResult} :
    restAuthVerify L users issuers now credential = .ok result ↔
      ∃ claims issuer, peekUnverifiedClaims L credential = .ok claims ∧
        Selects L users now credential (candidates issuers claims) issuer result := by
  unfold restAuthVerify
  split
  · next e he => simp [he]
  · next claims he => simp [he, verifyAgainst_ok_iff]

theorem catchPyJwtError_refusesAsInvalid {α : Type} (x : Except LibraryError α) :
    RefusesAsInvalid (catchPyJwtError x) := by
  unfold catchPyJwtError
  split
  · exact refusesAsInvalid_ok _
  · exact refusesAsInvalid_invalidCredential _
  · exact refusesAsInvalid_invalidCredential _
  · exact refusesAsInvalid_python _

theorem verifyAgainst_refusesAsInvalid (users : Accounts) (now : Int) (token : String)
    (issuers : List (Row Issuer)) :
    RefusesAsInvalid (verifyAgainst L users now token issuers) := by
  induction issuers with
  | nil => exact refusesAsInvalid_invalidCredential _
  | cons issuer issuers ih =>
    unfold verifyAgainst
    split
    · exact refusesAsInvalid_ok _
    · exact ih
    · next e hnot _ => exact fun _ _ _ _ h => absurd (Except.error.inj h) (hnot _ _ _ _)

theorem restAuthVerify_refusesAsInvalid (users : Accounts) (issuers : List (Row Issuer))
    (now : Int) (credential : String) :
    RefusesAsInvalid (restAuthVerify L users issuers now credential) := by
  unfold restAuthVerify
  split
  · next e he =>
    have h := catchPyJwtError_refusesAsInvalid (L.decodeUnverified credential)
    unfold peekUnverifiedClaims at he
    rw [he] at h
    exact fun _ _ _ _ h' => h _ _ _ _ (congrArg Except.error (Except.error.inj h'))
  · exact verifyAgainst_refusesAsInvalid users now credential _

/-- A token resolves an active user. -/
theorem isActive_of_restAuthVerify {users : Accounts} {issuers : List (Row Issuer)} {now : Int}
    {credential : String} {result : RestAuthResult}
    (h : restAuthVerify L users issuers now credential = .ok result) :
    isActive users result.uid = true := by
  obtain ⟨_, _, _, _, _, _, hok, _⟩ := restAuthVerify_ok_iff.mp h
  exact (verifyAgainstIssuer_ok hok).1

end SsiRest.Jwt
