import SsiRestApi.AccessProfile
import SsiRestApi.ApiKey.Key
import SsiRestApi.Jwt
import SsiRestApi.Oauth.Provider

/-!
# The five providers

`_rest_auth_verify` of the basic, bearer, apikey, jwt and oauth2 providers over one
database, and who may still authenticate once users and clients are archived.

    basic, bearer and jwt resolve active users only; apikey and oauth2 do exactly
    when the record they find belongs to active ones       (verify_active_iff)
-/

namespace SsiRest

open Py Tx

/-- `ssi_rest_auth_scheme`. -/
structure Scheme where
  code : String
  providerModel : String
  sequence : Int
  active : Bool
  deriving DecidableEq

/-- What a request reads. -/
structure Database where
  users : Accounts
  schemes : List (Row Scheme)
  profiles : Profiles
  keys : List (Row ApiKey.Key)
  clients : Oauth.Clients
  tokens : List (Row Oauth.Token)
  issuers : List (Row Jwt.Issuer)
  companies : List Nat
  /-- The codes of the active languages. -/
  langs : List String
  now : Int

/-- The credential checks of Odoo's core. -/
structure OdooCore where
  /-- `_check_uid_passwd(uid, passwd)`. -/
  checkUidPasswd : Accounts → Nat → String → Except Exn Unit
  /-- `res.users.apikeys._check_credentials(scope, key)`. -/
  checkCredentials : Accounts → String → String → Except Exn (Option Nat)

/-- The core refuses archived users. -/
structure OdooCore.RejectsArchived (core : OdooCore) : Prop where
  passwd : ∀ users uid passwd, core.checkUidPasswd users uid passwd = .ok () →
    isActive users uid = true
  credentials : ∀ users scope key uid, core.checkCredentials users scope key = .ok (some uid) →
    isActive users uid = true

/-- Everything outside the database. -/
structure Services where
  platform : Platform
  core : OdooCore
  jwt : Jwt.Library
  /-- `base.public_user`. -/
  publicUser : Nat

/-- A credential, as a provider extracts it. -/
inductive Presented where
  | basic (login password : String)
  | bearer (key : String)
  | apikey (rawKey : String)
  | jwt (token : String)
  | oauth2 (token : String)
  deriving DecidableEq

variable (S : Services)

def invalidLogin : Exn := invalidCredential "Invalid login or password."

/-- `_rest_auth_verify` of `ssi_rest_auth_basic`. -/
def basicVerify (users : Accounts) (login password : String) : Except Exn RestAuthResult :=
  match searchUser users fun u => u.login == login with
  | none => .error invalidLogin
  | some user =>
    match S.core.checkUidPasswd users user.id password with
    | .ok _ => .ok (RestAuthResult.ofUser user.id "basic")
    | .error (.userError .accessDenied _ _) => .error invalidLogin
    | .error e => .error e

/-- `_rest_auth_verify` of `ssi_rest_auth_bearer`. -/
def bearerVerify (users : Accounts) (key : String) : Except Exn RestAuthResult :=
  match S.core.checkCredentials users "rpc" key with
  | .error e => .error e
  | .ok none => .error (invalidCredential "Invalid or expired API key.")
  | .ok (some uid) => .ok (RestAuthResult.ofUser uid "bearer")

/-- `_rest_auth_verify` of the provider a credential is for. -/
def restAuthVerify (db : Database) : Presented → Except Exn RestAuthResult
  | .basic login password => basicVerify S db.users login password
  | .bearer key => bearerVerify S db.users key
  | .apikey rawKey => ApiKey.restAuthVerify S.platform db.keys db.now rawKey
  | .jwt token => Jwt.restAuthVerify S.jwt db.users db.issuers db.now token
  | .oauth2 token =>
    Oauth.restAuthVerify S.platform S.publicUser db.clients db.tokens db.now token

/-! ## Archived principals -/

def isActiveClient (clients : Oauth.Clients) (clientId : Nat) : Bool :=
  clients.any fun c => c.id == clientId && c.val.active

/-- The credential authenticates active users only, and a token only with its client active. -/
def ActivePrincipalsOnly (db : Database) (c : Presented) : Prop :=
  ∀ result, restAuthVerify S db c = .ok result →
    isActive db.users result.uid = true ∧
      ∀ token, c = .oauth2 token → ∀ record,
        Oauth.lookup S.platform db.tokens db.now (.str token) .access none = .ok (some record) →
          isActiveClient db.clients record.val.clientId = true

/-- The rows an access token may be: live, with its index. -/
def tokenCandidates (db : Database) (token : String) : List (Row Oauth.Token) :=
  db.tokens.filter fun r => r.val.tokenIndex == slice token Oauth.tokenIndexSize &&
    (r.val.tokenType == .access && !r.val.revoked && decide (r.val.expirationDate > db.now))

/-- The first live row the credential matches belongs to an active user and, for a token, an
active client. -/
def PrincipalActive (db : Database) : Presented → Prop
  | .apikey rawKey => rawKey ≠ "" → ∀ record,
      S.platform.crypt.Selects (fun r : Row ApiKey.Key => r.val.keyHash) rawKey
        (db.keys.filter fun r => ApiKey.candidate db.now rawKey r.val) record →
      isActive db.users record.val.userId = true
  | .oauth2 token => token ≠ "" → ∀ record,
      S.platform.crypt.Selects (fun r : Row Oauth.Token => some r.val.tokenHash) token
        (tokenCandidates db token) record →
      isActive db.users (record.val.userId.getD S.publicUser) = true ∧
        isActiveClient db.clients record.val.clientId = true
  | _ => True

variable {S}

theorem basicVerify_ok_iff {users : Accounts} {login password : String}
    {result : RestAuthResult} :
    basicVerify S users login password = .ok result ↔
      ∃ user, searchUser users (fun u => u.login == login) = some user ∧
        S.core.checkUidPasswd users user.id password = .ok () ∧
        result = RestAuthResult.ofUser user.id "basic" := by
  unfold basicVerify
  split
  · next huser => simp [huser]
  · next user huser =>
    split
    · next hcheck => simp [huser, hcheck, eq_comm]
    · next hcheck => simp [huser, hcheck]
    · next hcheck => simp [huser, hcheck]

theorem bearerVerify_ok_iff {users : Accounts} {key : String} {result : RestAuthResult} :
    bearerVerify S users key = .ok result ↔
      ∃ uid, S.core.checkCredentials users "rpc" key = .ok (some uid) ∧
        result = RestAuthResult.ofUser uid "bearer" := by
  unfold bearerVerify
  split
  · next he => simp [he]
  · next he => simp [he]
  · next uid he => simp [he, eq_comm]

/-- An access token is looked up among the live rows with its index. -/
theorem lookup_access_iff {db : Database} {token : String} {record : Row Oauth.Token} :
    Oauth.lookup S.platform db.tokens db.now (.str token) .access none = .ok (some record) ↔
      token ≠ "" ∧ S.platform.crypt.Selects (fun r : Row Oauth.Token => some r.val.tokenHash)
        token (tokenCandidates db token) record := by
  unfold Oauth.lookup tokenCandidates
  rw [Oauth.findByRaw_str_iff]
  simp

theorem apikey_active_iff {db : Database} {rawKey : String} :
    ActivePrincipalsOnly S db (.apikey rawKey) ↔ PrincipalActive S db (.apikey rawKey) := by
  unfold ActivePrincipalsOnly PrincipalActive restAuthVerify
  constructor
  · intro h hne record hrecord
    have hauth := ApiKey.authenticate_some_iff.mpr ⟨hne, hrecord⟩
    exact (h _ (ApiKey.restAuthVerify_ok.mpr ⟨record, hauth, rfl⟩)).1
  · intro h result hresult
    obtain ⟨record, hauth, rfl⟩ := ApiKey.restAuthVerify_ok.mp hresult
    obtain ⟨hne, hrecord⟩ := ApiKey.authenticate_some_iff.mp hauth
    exact ⟨h hne record hrecord, fun token he => by cases he⟩

theorem oauth2_active_iff {db : Database} {token : String} :
    ActivePrincipalsOnly S db (.oauth2 token) ↔ PrincipalActive S db (.oauth2 token) := by
  unfold ActivePrincipalsOnly PrincipalActive restAuthVerify
  constructor
  · intro h hne record hrecord
    have hlookup := lookup_access_iff.mpr ⟨hne, hrecord⟩
    obtain ⟨huser, hclient⟩ := h _ (Oauth.restAuthVerify_ok.mpr ⟨record, hlookup, rfl⟩)
    exact ⟨huser, hclient token rfl record hlookup⟩
  · intro h result hresult
    obtain ⟨record, hlookup, rfl⟩ := Oauth.restAuthVerify_ok.mp hresult
    obtain ⟨hne, hrecord⟩ := lookup_access_iff.mp hlookup
    obtain ⟨huser, hclient⟩ := h hne record hrecord
    refine ⟨huser, fun token' he record' hlookup' => ?_⟩
    cases he
    rw [hlookup] at hlookup'
    cases hlookup'
    exact hclient

/-- **Archived principals.**  In every database a credential authenticates active users only,
and an access token only with its client active, exactly when it is for the basic, bearer or
jwt provider or the first live row it matches belongs to active ones. -/
theorem verify_active_iff (S : Services) (hcore : S.core.RejectsArchived) (db : Database)
    (c : Presented) : ActivePrincipalsOnly S db c ↔ PrincipalActive S db c := by
  cases c with
  | basic login password =>
    refine iff_of_true (fun result h => ?_) trivial
    obtain ⟨user, huser, -, rfl⟩ := basicVerify_ok_iff.mp h
    exact ⟨isActive_of_searchUser huser, fun _ he => by cases he⟩
  | bearer key =>
    refine iff_of_true (fun result h => ?_) trivial
    obtain ⟨uid, huid, rfl⟩ := bearerVerify_ok_iff.mp h
    exact ⟨hcore.credentials _ _ _ _ huid, fun _ he => by cases he⟩
  | apikey rawKey => exact apikey_active_iff
  | jwt token =>
    exact iff_of_true
      (fun _ h => ⟨Jwt.isActive_of_restAuthVerify h, fun _ he => by cases he⟩) trivial
  | oauth2 token => exact oauth2_active_iff

/-! ## Refusals -/

/-- The core knows no `RestAuthError`. -/
structure OdooCore.RaisesNoRestAuthError (core : OdooCore) : Prop where
  passwd : ∀ users uid passwd errorCode description status headers,
    core.checkUidPasswd users uid passwd ≠
      .error (.restAuthError errorCode description status headers)
  credentials : ∀ users scope key errorCode description status headers,
    core.checkCredentials users scope key ≠
      .error (.restAuthError errorCode description status headers)

theorem basicVerify_refusesAsInvalid (hcore : S.core.RaisesNoRestAuthError) (users : Accounts)
    (login password : String) : RefusesAsInvalid (basicVerify S users login password) := by
  unfold basicVerify
  split
  · exact refusesAsInvalid_invalidCredential _
  · split
    · exact refusesAsInvalid_ok _
    · exact refusesAsInvalid_invalidCredential _
    · next e _ he =>
      intro _ _ _ _ h
      cases h
      exact absurd he (hcore.passwd _ _ _ _ _ _ _)

theorem bearerVerify_refusesAsInvalid (hcore : S.core.RaisesNoRestAuthError) (users : Accounts)
    (key : String) : RefusesAsInvalid (bearerVerify S users key) := by
  unfold bearerVerify
  split
  · next e he =>
    intro _ _ _ _ h
    cases h
    exact absurd he (hcore.credentials _ _ _ _ _ _ _)
  · exact refusesAsInvalid_invalidCredential _
  · exact refusesAsInvalid_ok _

theorem apikey_refusesAsInvalid (P : Platform) (rows : List (Row ApiKey.Key)) (now : Int)
    (credential : String) : RefusesAsInvalid (ApiKey.restAuthVerify P rows now credential) := by
  unfold ApiKey.restAuthVerify ApiKey.authenticate
  split
  · next e he =>
    split at he
    · cases he
    · rw [CryptContext.eq_bad_of_firstMatch he]
      exact refusesAsInvalid_python _
  · exact refusesAsInvalid_invalidCredential _
  · exact refusesAsInvalid_ok _

theorem oauth2_refusesAsInvalid (P : Platform) (publicUser : Nat) (clients : Oauth.Clients)
    (rows : List (Row Oauth.Token)) (now : Int) (credential : String) :
    RefusesAsInvalid (Oauth.restAuthVerify P publicUser clients rows now credential) := by
  unfold Oauth.restAuthVerify Oauth.lookup Oauth.findByRaw
  split
  · next e he =>
    split at he
    · cases he
    · rw [CryptContext.eq_bad_of_firstMatch he]
      exact refusesAsInvalid_python _
  · exact refusesAsInvalid_invalidCredential _
  · exact refusesAsInvalid_ok _

/-- A verification that refuses a credential says that it is invalid. -/
theorem restAuthVerify_refusesAsInvalid (hcore : S.core.RaisesNoRestAuthError) (db : Database)
    (c : Presented) : RefusesAsInvalid (restAuthVerify S db c) := by
  cases c with
  | basic login password => exact basicVerify_refusesAsInvalid hcore _ login password
  | bearer key => exact bearerVerify_refusesAsInvalid hcore _ key
  | apikey rawKey => exact apikey_refusesAsInvalid _ _ _ rawKey
  | jwt token => exact Jwt.restAuthVerify_refusesAsInvalid _ _ _ token
  | oauth2 token => exact oauth2_refusesAsInvalid _ _ _ _ _ token

/-! ## A database with an archived user -/

/-- A core with one password and one API key, for user 7. -/
def sampleCore : OdooCore where
  checkUidPasswd users uid passwd :=
    if uid = 7 ∧ passwd = "secret" ∧ isActive users uid = true then .ok ()
    else .error (.userError .accessDenied 403 "Access Denied")
  checkCredentials users scope key :=
    .ok (if scope = "rpc" ∧ key = "core-key" ∧ isActive users 7 = true then some 7 else none)

theorem sampleCore_rejectsArchived : sampleCore.RejectsArchived where
  passwd users uid passwd h := by
    unfold sampleCore at h
    dsimp only at h
    split at h
    · next hc => exact hc.2.2
    · cases h
  credentials users scope key uid h := by
    unfold sampleCore at h
    dsimp only at h
    split at h
    · next hc =>
      cases h
      exact hc.2.2
    · cases h

theorem sampleCore_raisesNoRestAuthError : sampleCore.RaisesNoRestAuthError where
  passwd users uid passwd errorCode description status headers h := by
    unfold sampleCore at h
    dsimp only at h
    split at h <;> cases h
  credentials users scope key errorCode description status headers h := by cases h

/-- Services whose issuers sign nothing. -/
def sampleServices : Services where
  platform := Platform.sample
  core := sampleCore
  jwt :=
    { decodeUnverified := fun _ => .error .pyJwtError
      decode := fun _ _ _ _ => .error .pyJwtError
      signingKey := fun _ _ _ => .error .pyJwkClientError }
  publicUser := 3

def account (login : String) (active : Bool) : Account :=
  ⟨login, none, active, [.user], 1, [1], false⟩

/-- A generated key of a user. -/
def keyOf (id uid i : Nat) : Row ApiKey.Key :=
  ⟨id, update (ApiKey.generatedVals Platform.sample i) (ApiKey.blank uid 1)⟩

/-- An access token of a user. -/
def tokenOf (id clientId uid i : Nat) : Row Oauth.Token :=
  ⟨id, Oauth.newToken Platform.sample i 0 clientId (some uid) .access (.str "read") 3600 none none⟩

def archivedClient : Row Oauth.Client where
  id := 1
  val :=
    { active := false
      clientId := "web"
      clientSecretHash := none
      clientType := .publicClient
      redirectUriIds := []
      grantTypes := "authorization_code"
      scopeIds := []
      accessTokenLifetime := 3600
      refreshTokenLifetime := 1209600
      profileId := none }

/-- User 7 is active, user 9 and the only client are archived; each user has a key, and user 7
an access token. -/
def archivedDatabase : Database where
  users := [⟨7, account "employee" true⟩, ⟨9, account "former" false⟩]
  schemes := []
  profiles := []
  keys := [keyOf 1 9 1, keyOf 0 7 0]
  clients := [archivedClient]
  tokens := [tokenOf 0 1 7 2]
  issuers := []
  companies := [1]
  langs := []
  now := 0

/-- The key of the active user authenticates them. -/
theorem activePrincipalsOnly_employee :
    ActivePrincipalsOnly sampleServices archivedDatabase
      (.apikey (ApiKey.rawKey Platform.sample 0)) := by
  refine (verify_active_iff sampleServices sampleCore_rejectsArchived archivedDatabase _).mpr ?_
  intro _ record hrecord
  have hfirst : Platform.sample.crypt.firstMatch () (fun r : Row ApiKey.Key => r.val.keyHash)
      (ApiKey.rawKey Platform.sample 0) (archivedDatabase.keys.filter fun r =>
        ApiKey.candidate archivedDatabase.now (ApiKey.rawKey Platform.sample 0) r.val) =
          .ok (some record) :=
    CryptContext.firstMatch_iff_selects.mpr hrecord
  obtain rfl : keyOf 0 7 0 = record := Option.some.inj (Except.ok.inj hfirst)
  decide

/-- The key of the archived user still authenticates them, and the access token outlives its
client. -/
theorem not_activePrincipalsOnly :
    ¬ ActivePrincipalsOnly sampleServices archivedDatabase
        (.apikey (ApiKey.rawKey Platform.sample 1)) ∧
      ¬ ActivePrincipalsOnly sampleServices archivedDatabase
        (.oauth2 (Oauth.rawValue Platform.sample 2)) := by
  refine ⟨fun h => ?_, fun h => ?_⟩
  · exact absurd (h _ (by rfl)).1 (by decide)
  · exact absurd ((h _ (by rfl)).2 _ rfl (tokenOf 0 1 7 2) (by rfl)) (by decide)

end SsiRest
