import SsiRestApi.JwtIssuers
import SsiRestApi.ProfileScope

/-!
# Users enabled for the API

`ssi_rest_enabled` says whether a user may be resolved as the identity of a request.
Neither `_auth_method_ssi_rest` nor any provider reads it: whoever owns the credential
is authenticated, enabled or not.

    only enabled users are authenticated
      ↔ the credential presented belongs to an enabled user         (enabledUsersOnly_iff)
-/

namespace SsiRest

open Py Tx

def isEnabled (users : Accounts) (uid : Nat) : Bool :=
  users.any fun u => u.id == uid && u.val.ssiRestEnabled

/-- The credential is an access token of no user, issued for client credentials. -/
def IsClientToken (S : Services) (db : Database) (c : Presented) : Prop :=
  ∃ token record, c = .oauth2 token ∧
    Oauth.lookup S.platform db.tokens db.now (.str token) .access none = .ok (some record) ∧
    record.val.userId = none

/-- The method succeeds for enabled users only, and for the public user of a client's token. -/
def EnabledUsersOnly (site : Site) (db : Database) (route : Route) (q : HttpRequest) : Prop :=
  ∀ result, authMethodSsiRest site db route q = .ok result →
    isEnabled db.users result.uid = true ∨
      ∃ c, extractAll site.registry q (candidateSchemes db route) = .ok [c] ∧
        IsClientToken site.services db c

/-- Whom the credential would authenticate, if anyone, is enabled: the user with the login whose
password the core accepts, the owner of the core's key, the user of the first live row the
credential matches, or the user the first accepting issuer finds. -/
def PrincipalEnabled (S : Services) (db : Database) : Presented → Prop
  | .basic login password => ∀ user, searchUser db.users (fun u => u.login == login) = some user →
      S.core.checkUidPasswd db.users user.id password = .ok () →
      isEnabled db.users user.id = true
  | .bearer key => ∀ uid, S.core.checkCredentials db.users "rpc" key = .ok (some uid) →
      isEnabled db.users uid = true
  | .apikey rawKey => rawKey ≠ "" → ∀ record,
      S.platform.crypt.Selects (fun r : Row ApiKey.Key => r.val.keyHash) rawKey
        (db.keys.filter fun r => ApiKey.candidate db.now rawKey r.val) record →
      isEnabled db.users record.val.userId = true
  | .jwt token => ∀ claims issuer user, Jwt.peekUnverifiedClaims S.jwt token = .ok claims →
      Jwt.Selects S.jwt db.users db.now token (Jwt.candidates db.issuers claims) issuer
        (Jwt.issuerResult issuer user) →
      isEnabled db.users user.id = true
  | .oauth2 token => token ≠ "" → ∀ record,
      S.platform.crypt.Selects (fun r : Row Oauth.Token => some r.val.tokenHash) token
        (tokenCandidates db token) record →
      ∀ uid, record.val.userId = some uid → isEnabled db.users uid = true

/-- Whoever the credential authenticates is enabled, or it is a client's token. -/
def ResolvesEnabled (S : Services) (db : Database) (c : Presented) : Prop :=
  ∀ result, restAuthVerify S db c = .ok result →
    isEnabled db.users result.uid = true ∨ IsClientToken S db c

variable {S : Services} {db : Database}

theorem not_isClientToken {c : Presented} (h : ∀ token, c ≠ .oauth2 token) :
    ¬ IsClientToken S db c :=
  fun ⟨token, _, hc, _⟩ => h token hc

theorem basic_enabled_iff {login password : String} :
    ResolvesEnabled S db (.basic login password) ↔
      PrincipalEnabled S db (.basic login password) := by
  unfold ResolvesEnabled PrincipalEnabled restAuthVerify
  constructor
  · intro h user huser hcheck
    have hresult := basicVerify_ok_iff.mpr ⟨user, huser, hcheck, rfl⟩
    exact (h _ hresult).resolve_right (not_isClientToken fun _ hc => by cases hc)
  · intro h result hresult
    obtain ⟨user, huser, hcheck, rfl⟩ := basicVerify_ok_iff.mp hresult
    exact Or.inl (h user huser hcheck)

theorem bearer_enabled_iff {key : String} :
    ResolvesEnabled S db (.bearer key) ↔ PrincipalEnabled S db (.bearer key) := by
  unfold ResolvesEnabled PrincipalEnabled restAuthVerify
  constructor
  · intro h uid huid
    have hresult := bearerVerify_ok_iff.mpr ⟨uid, huid, rfl⟩
    exact (h _ hresult).resolve_right (not_isClientToken fun _ hc => by cases hc)
  · intro h result hresult
    obtain ⟨uid, huid, rfl⟩ := bearerVerify_ok_iff.mp hresult
    exact Or.inl (h uid huid)

theorem apikey_enabled_iff {rawKey : String} :
    ResolvesEnabled S db (.apikey rawKey) ↔ PrincipalEnabled S db (.apikey rawKey) := by
  unfold ResolvesEnabled PrincipalEnabled restAuthVerify
  constructor
  · intro h hne record hrecord
    have hauth := ApiKey.authenticate_some_iff.mpr ⟨hne, hrecord⟩
    have hresult := ApiKey.restAuthVerify_ok.mpr ⟨record, hauth, rfl⟩
    exact (h _ hresult).resolve_right (not_isClientToken fun _ hc => by cases hc)
  · intro h result hresult
    obtain ⟨record, hauth, rfl⟩ := ApiKey.restAuthVerify_ok.mp hresult
    obtain ⟨hne, hrecord⟩ := ApiKey.authenticate_some_iff.mp hauth
    exact Or.inl (h hne record hrecord)

theorem jwt_enabled_iff {token : String} :
    ResolvesEnabled S db (.jwt token) ↔ PrincipalEnabled S db (.jwt token) := by
  unfold ResolvesEnabled PrincipalEnabled restAuthVerify
  constructor
  · intro h claims issuer user hclaims hselects
    have hresult := Jwt.restAuthVerify_ok_iff.mpr ⟨claims, issuer, hclaims, hselects⟩
    exact (h _ hresult).resolve_right (not_isClientToken fun _ hc => by cases hc)
  · intro h result hresult
    obtain ⟨claims, issuer, hclaims, hselects⟩ := Jwt.restAuthVerify_ok_iff.mp hresult
    obtain ⟨before, after, -, hok, -⟩ := id hselects
    obtain ⟨user, -, rfl⟩ := Jwt.verifyAgainstIssuer_eq_iff.mp hok
    exact Or.inl (h claims issuer user hclaims hselects)

theorem authResult_uid {publicUser uid : Nat} {clients : Oauth.Clients} {t : Oauth.Token}
    (h : t.userId = some uid) : (Oauth.authResult publicUser clients t).uid = uid := by
  simp [Oauth.authResult, h]

theorem oauth2_enabled_iff {token : String} :
    ResolvesEnabled S db (.oauth2 token) ↔ PrincipalEnabled S db (.oauth2 token) := by
  unfold ResolvesEnabled PrincipalEnabled restAuthVerify
  constructor
  · intro h hne record hrecord uid huid
    have hlookup := lookup_access_iff.mpr ⟨hne, hrecord⟩
    rcases h _ (Oauth.restAuthVerify_ok.mpr ⟨record, hlookup, rfl⟩) with henabled | hclient
    · rwa [authResult_uid huid] at henabled
    · obtain ⟨token', record', hc, hlookup', hnone⟩ := hclient
      cases hc
      rw [hlookup] at hlookup'
      cases hlookup'
      cases huid.symm.trans hnone
  · intro h result hresult
    obtain ⟨record, hlookup, rfl⟩ := Oauth.restAuthVerify_ok.mp hresult
    obtain ⟨hne, hrecord⟩ := lookup_access_iff.mp hlookup
    cases huid : record.val.userId with
    | none => exact Or.inr ⟨token, record, rfl, hlookup, huid⟩
    | some uid =>
      left
      rw [authResult_uid huid]
      exact h hne record hrecord uid huid

theorem resolvesEnabled_iff (c : Presented) : ResolvesEnabled S db c ↔ PrincipalEnabled S db c := by
  cases c with
  | basic login password => exact basic_enabled_iff
  | bearer key => exact bearer_enabled_iff
  | apikey rawKey => exact apikey_enabled_iff
  | jwt token => exact jwt_enabled_iff
  | oauth2 token => exact oauth2_enabled_iff

/-- Only enabled users are authenticated exactly when the one credential the request presents
belongs to an enabled user. -/
theorem enabledUsersOnly_iff (site : Site) (db : Database) (route : Route) (q : HttpRequest) :
    EnabledUsersOnly site db route q ↔
      ∀ c, extractAll site.registry q (candidateSchemes db route) = .ok [c] →
        PrincipalEnabled site.services db c := by
  constructor
  · intro h c hc
    refine (resolvesEnabled_iff c).mp fun result hresult => ?_
    rcases h result (authMethodSsiRest_ok_iff.mpr ⟨c, hc, hresult⟩) with henabled | ⟨c', hc', ht⟩
    · exact Or.inl henabled
    · rw [hc] at hc'
      cases hc'
      exact Or.inr ht
  · intro h result hresult
    obtain ⟨c, hc, hverify⟩ := authMethodSsiRest_ok_iff.mp hresult
    rcases (resolvesEnabled_iff c).mpr (h c hc) result hverify with henabled | hclient
    · exact Or.inl henabled
    · exact Or.inr ⟨c, hc, hclient⟩

/-- The API key of a user who is not enabled authenticates them. -/
theorem not_enabledUsersOnly :
    ¬ EnabledUsersOnly sampleSite scopedDatabase sampleRoute keyedRequest := by
  intro h
  rcases h ⟨7, "apikey", [1], [], none⟩ (by rfl) with henabled | ⟨c, hc, token, _, rfl, -, -⟩
  · exact absurd henabled (by decide)
  · have hapikey : extractAll sampleSite.registry keyedRequest
        (candidateSchemes scopedDatabase sampleRoute) =
          .ok [.apikey (ApiKey.rawKey Platform.sample 0)] := by rfl
    cases hapikey.symm.trans hc

end SsiRest
