import SsiRestApi.Dispatch

/-!
# The profile of a credential

An API key, a token issuer and an OAuth client each name one access profile, and the
result of the provider carries it.  The dispatcher checks the profiles that apply to
the user instead.

    the profile decides ↔ the credential's own profile allows the request, or
      something else refuses it                              (profile_scope_iff)
-/

namespace SsiRest

open Py Tx

/-! ## Which profile a credential is scoped to -/

/-- The credential authenticates a user, under the profile of its key, issuer or client. -/
def ScopedTo (S : Services) (db : Database) : Presented → Nat → Nat → Prop
  | .apikey rawKey, uid, profileId => ∃ record,
      ApiKey.authenticate S.platform db.keys db.now rawKey = .ok (some record) ∧
        record.val.userId = uid ∧ record.val.profileId = profileId
  | .jwt token, uid, profileId => ∃ claims issuer result,
      Jwt.peekUnverifiedClaims S.jwt token = .ok claims ∧
        Jwt.Selects S.jwt db.users db.now token (Jwt.candidates db.issuers claims) issuer result ∧
        result.uid = uid ∧ issuer.val.profileId = some profileId
  | .oauth2 token, uid, profileId => ∃ record,
      Oauth.lookup S.platform db.tokens db.now (.str token) .access none = .ok (some record) ∧
        record.val.userId.getD S.publicUser = uid ∧
        Oauth.clientProfile db.clients record.val.clientId = some profileId
  | _, _, _ => False

/-- The result of a provider carries the profile its credential is scoped to. -/
theorem scopedTo_iff {S : Services} {db : Database} {c : Presented} {uid profileId : Nat} :
    ScopedTo S db c uid profileId ↔
      ∃ result, restAuthVerify S db c = .ok result ∧ result.uid = uid ∧
        profileId ∈ result.profileIds := by
  cases c with
  | basic login password =>
    refine iff_of_false id ?_
    rintro ⟨result, hresult, -, hmem⟩
    obtain ⟨user, -, -, rfl⟩ := basicVerify_ok_iff.mp hresult
    cases hmem
  | bearer key =>
    refine iff_of_false id ?_
    rintro ⟨result, hresult, -, hmem⟩
    obtain ⟨uid, -, rfl⟩ := bearerVerify_ok_iff.mp hresult
    cases hmem
  | apikey rawKey =>
    constructor
    · rintro ⟨record, hauth, rfl, rfl⟩
      exact ⟨_, ApiKey.restAuthVerify_ok.mpr ⟨record, hauth, rfl⟩, rfl, List.mem_singleton_self _⟩
    · rintro ⟨result, hresult, rfl, hmem⟩
      obtain ⟨record, hauth, rfl⟩ := ApiKey.restAuthVerify_ok.mp hresult
      exact ⟨record, hauth, rfl, (List.mem_singleton.mp hmem).symm⟩
  | jwt token =>
    constructor
    · rintro ⟨claims, issuer, result, hclaims, hselects, rfl, hprofile⟩
      refine ⟨result, Jwt.restAuthVerify_ok_iff.mpr ⟨claims, issuer, hclaims, hselects⟩, rfl, ?_⟩
      obtain ⟨-, -, -, hok, -⟩ := id hselects
      rw [(Jwt.verifyAgainstIssuer_ok hok).2, hprofile]
      exact List.mem_singleton_self _
    · rintro ⟨result, hresult, rfl, hmem⟩
      obtain ⟨claims, issuer, hclaims, hselects⟩ := Jwt.restAuthVerify_ok_iff.mp hresult
      obtain ⟨-, -, -, hok, -⟩ := id hselects
      rw [(Jwt.verifyAgainstIssuer_ok hok).2] at hmem
      exact ⟨claims, issuer, result, hclaims, hselects, rfl, Option.mem_toList.mp hmem⟩
  | oauth2 token =>
    constructor
    · rintro ⟨record, hlookup, rfl, hprofile⟩
      exact ⟨_, Oauth.restAuthVerify_ok.mpr ⟨record, hlookup, rfl⟩, rfl,
        Option.mem_toList.mpr hprofile⟩
    · rintro ⟨result, hresult, rfl, hmem⟩
      obtain ⟨record, hlookup, rfl⟩ := Oauth.restAuthVerify_ok.mp hresult
      exact ⟨record, hlookup, rfl, Option.mem_toList.mp hmem⟩

/-! ## Whether it decides -/

/-- An active profile with the id allows the request, or there is none. -/
def ProfileAllows (db : Database) (profileId : Nat) (d : RequestDescription) : Prop :=
  ∀ p ∈ db.profiles, p.id = profileId → p.val.active = true → p.val.evaluateRequest d = true

/-- A request with a credential reaches its endpoint only if every profile the credential
carries allows it. -/
def ScopedToProfile (site : Site) (db : Database) (route : Route) (pathArgs : Kw)
    (q : HttpRequest) : Prop :=
  ∀ uid result call, identify site db route q = .ok ⟨uid, some result⟩ →
    serve site db route pathArgs q = .ok call →
      ∀ profileId ∈ result.profileIds, ProfileAllows db profileId (route.describe q)

/-- A request of a user stops for another reason: the core's checks, the user is gone, the
user's own profiles, the company or the body. -/
def Refused (site : Site) (db : Database) (route : Route) (pathArgs : Kw) (q : HttpRequest)
    (uid : Nat) : Prop :=
  site.corePreDispatch q ≠ .ok () ∨
    ∀ user, findAccount db.users uid = .ok user →
      (getApplicableProfiles db.profiles (user.principal uid) ≠ [] ∧
        ∀ p ∈ getApplicableProfiles db.profiles (user.principal uid),
          p.val.evaluateRequest (route.describe q) = false) ∨
      (∃ e, resolveCompany db user q = .error e) ∨ ∃ e, mergeParams q pathArgs = .error e

theorem exists_ok_of_not_error {ε α : Type} {x : Except ε α} (h : ¬ ∃ e, x = .error e) :
    ∃ a, x = .ok a := by
  cases x with
  | error e => exact absurd ⟨e, rfl⟩ h
  | ok a => exact ⟨a, rfl⟩

/-- An identified request reaches its endpoint unless something refuses it. -/
theorem exists_serve_iff {site : Site} {db : Database} {route : Route} {pathArgs : Kw}
    {q : HttpRequest} {identity : Identity} (hid : identify site db route q = .ok identity) :
    (∃ call, serve site db route pathArgs q = .ok call) ↔
      ¬ Refused site db route pathArgs q identity.uid := by
  unfold Refused
  constructor
  · rintro ⟨call, hcall⟩ hrefused
    obtain ⟨identity', user, companyId, params, hid', hcore, haccess, hcompany, hparams, -⟩ :=
      serve_ok_iff.mp hcall
    obtain rfl : identity' = identity := Except.ok.inj (hid'.symm.trans hid)
    obtain ⟨huser, hallowed⟩ := enforceAccessProfile_ok_iff.mp haccess
    rcases hrefused with h | h
    · exact h hcore
    · rcases h user huser with hdeny | ⟨e, he⟩ | ⟨e, he⟩
      · rw [checkRequestAccess_eq_false_iff.mpr hdeny] at hallowed
        cases hallowed
      · cases hcompany.symm.trans he
      · cases hparams.symm.trans he
  · intro hrefused
    push Not at hrefused
    obtain ⟨hcore, user, huser, haccess, hcompany, hparams⟩ := hrefused
    obtain ⟨companyId, hcompany⟩ := exists_ok_of_not_error fun ⟨e, he⟩ => hcompany e he
    obtain ⟨params, hparams⟩ := exists_ok_of_not_error fun ⟨e, he⟩ => hparams e he
    refine ⟨_, serve_ok_iff.mpr ⟨identity, user, companyId, params, hid, hcore,
      enforceAccessProfile_ok_iff.mpr ⟨huser, ?_⟩, hcompany, hparams, rfl⟩⟩
    by_contra hdenied
    obtain ⟨hne, hall⟩ := checkRequestAccess_eq_false_iff.mp (Bool.eq_false_iff.mpr hdenied)
    obtain ⟨p, hp, hallow⟩ := haccess hne
    exact hallow (hall p hp)

/-- **Credential scope.**  A request reaches its endpoint only as the profile of its credential
allows exactly when, for the user and profile of the one credential it presents, an active
profile with that id allows the request, or something else refuses it. -/
theorem profile_scope_iff (site : Site) (db : Database) (route : Route) (pathArgs : Kw)
    (q : HttpRequest) :
    ScopedToProfile site db route pathArgs q ↔
      ∀ c uid profileId, Presents site db route q c → ScopedTo site.services db c uid profileId →
        ProfileAllows db profileId (route.describe q) ∨ Refused site db route pathArgs q uid := by
  constructor
  · intro h c uid profileId hc hscoped
    obtain ⟨result, hresult, rfl, hmem⟩ := scopedTo_iff.mp hscoped
    have hid := identify_restAuth_iff.mpr ⟨rfl, c, hc, hresult⟩
    by_cases hrefused : Refused site db route pathArgs q result.uid
    · exact Or.inr hrefused
    · obtain ⟨call, hcall⟩ := (exists_serve_iff hid).mpr hrefused
      exact Or.inl (h result.uid result call hid hcall profileId hmem)
  · intro h uid result call hid hcall profileId hmem
    obtain ⟨rfl, c, hc, hresult⟩ := identify_restAuth_iff.mp hid
    rcases h c result.uid profileId hc (scopedTo_iff.mpr ⟨result, hresult, rfl, hmem⟩) with
      hallows | hrefused
    · exact hallows
    · exact absurd hrefused ((exists_serve_iff hid).mp ⟨call, hcall⟩)

/-! ## A key whose profile denies everything -/

/-- A site with the apikey provider; other routes run as user 7. -/
def sampleSite : Site where
  services := sampleServices
  registry model := if model = "ssi_rest_auth_apikey" then some ssiRestAuthApikey else none
  coreAuth _ _ _ := .ok 7
  corePreDispatch _ := .ok ()

/-- User 7 has a key under a profile without rules, and no profile of their own. -/
def scopedDatabase : Database :=
  { archivedDatabase with
    schemes := [⟨0, ⟨"apikey", "ssi_rest_auth_apikey", 10, true⟩⟩]
    profiles := [⟨1, ⟨true, .deny, [], [], []⟩⟩] }

def sampleRoute : Route :=
  ⟨"/api/<string:model>/<int:id>", .ssiRest, [], some "res.partner", some "read"⟩

/-- A request with the key of user 7. -/
def keyedRequest : HttpRequest where
  remoteAddr := some "127.0.0.1"
  path := "/api/res.partner/1"
  method := "GET"
  headers := [("X-Api-Key", ApiKey.rawKey Platform.sample 0)]
  args := []
  mimetype := ""
  formParams := []
  contentLength := 0
  jsonData := .ok .null

/-- The request reaches its endpoint although the profile of its key denies it. -/
theorem not_scopedToProfile :
    ¬ ScopedToProfile sampleSite scopedDatabase sampleRoute [] keyedRequest := by
  intro h
  have hallows := h 7 ⟨7, "apikey", [1], [], none⟩ ⟨7, 1, none, []⟩ (by rfl) (by rfl) 1 (by decide)
  exact absurd (hallows ⟨1, ⟨true, .deny, [], [], []⟩⟩ (by decide) rfl rfl) (by decide)

end SsiRest
