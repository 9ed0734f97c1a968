import SsiRestApi.Lib.Collect
import SsiRestApi.ProfileScope

/-!
# Selecting a scheme

`_auth_method_ssi_rest` over arbitrary providers, with what it changes of the request
and the verifications it makes.

    resequenced schemes: same request afterwards, same verifications, same outcome up to
      the order of the challenges
    a verification is made ↔ no provider raises and exactly one scheme finds a credential
    the request changes only by a verification that returned     (scheme_selection)

Two providers whose challenges raise differently end a request without credentials in
one way or the other, by the order of their schemes                (not_selectsAlike)

`authMethodSsiRest` is this method at the providers of a site  (authMethod_eq_authMethodSsiRest).
-/

namespace SsiRest

open Py Tx

/-- A `mixin.rest_authenticator` with credentials of any kind. -/
structure Authenticator (Cred : Type) where
  extract : HttpRequest → Except Exn (Option Cred)
  verify : Cred → Except Exn RestAuthResult
  challenge : HttpRequest → Except Exn (Option String)

/-- What authentication may change of a request. -/
structure Session where
  /-- `request.env.uid`. -/
  uid : Option Nat
  /-- `request.session.can_save`. -/
  canSave : Bool
  restAuth : Option RestAuthResult
  deriving DecidableEq

/-- A run of the auth method: the request it leaves, the credentials it had verified with the
provider of each, and how it ended. -/
structure AuthRun (Cred : Type) where
  session : Session
  verified : List (String × Cred)
  outcome : Except Exn Unit

/-- `update_env(user=result.uid)`, `can_save = False`, `rest_auth = result`. -/
def Session.authenticated (result : RestAuthResult) : Session :=
  ⟨some result.uid, false, some result⟩

section

variable {Cred : Type} (env : String → Option (Authenticator Cred))

/-- One round of the extraction loop: the provider that found a credential, with the
credential. -/
def extraction (q : HttpRequest) (scheme : String × String) :
    Except Exn (Option (Authenticator Cred × String × Cred)) :=
  match env scheme.2 with
  | none => .error (.python "KeyError")
  | some provider =>
    match onlyRestAuthError (provider.extract q) with
    | .error e => .error e
    | .ok credential => .ok (credential.map fun c => (provider, scheme.2, c))

/-- The challenge of one scheme, unless it is empty. -/
def challengeOf (q : HttpRequest) (scheme : String × String) : Except Exn (Option String) :=
  match env scheme.2 with
  | none => .error (.python "KeyError")
  | some provider =>
    match provider.challenge q with
    | .error e => .error e
    | .ok challenge => .ok (challenge.filter (· ≠ ""))

/-- The `WWW-Authenticate` header of these challenges. -/
def wwwAuthenticate (challenges : List String) : List (String × String) :=
  if challenges.isEmpty then [] else [("WWW-Authenticate", join ", " challenges)]

def multipleCredentials : Exn :=
  RestAuthError "multiple_credentials"
    ("More than one authentication scheme provided credentials " ++ "for this request.") 400

def authenticationRequired (headers : List (String × String)) : Exn :=
  .restAuthError "authentication_required"
    "Authentication is required to access this resource." 401 headers

/-- `_auth_method_ssi_rest`, for the schemes the route accepts. -/
def authMethod (schemes : List (String × String)) (q : HttpRequest) (s : Session) :
    AuthRun Cred :=
  match Collect.run (extraction env q) schemes with
  | .error e => ⟨s, [], .error e⟩
  | .ok [] =>
    match Collect.run (challengeOf env q) schemes with
    | .error e => ⟨s, [], .error e⟩
    | .ok challenges => ⟨s, [], .error (authenticationRequired (wwwAuthenticate challenges))⟩
  | .ok [(provider, model, credential)] =>
    match onlyRestAuthError (provider.verify credential) with
    | .error e => ⟨s, [(model, credential)], .error e⟩
    | .ok result => ⟨Session.authenticated result, [(model, credential)], .ok ()⟩
  | .ok _ => ⟨s, [], .error multipleCredentials⟩

/-! ## What the providers do -/

/-- Looking for a credential with a provider model raises: there is no such model, or its
`_rest_auth_extract()` raises. -/
def Raises (q : HttpRequest) (model : String) : Prop :=
  ∀ provider, env model = some provider → ∃ e, provider.extract q = .error e

/-- At most one provider of the schemes raises. -/
def OneRaises (q : HttpRequest) (schemes : List (String × String)) : Prop :=
  ∀ a ∈ schemes, ∀ b ∈ schemes, Raises env q a.2 → Raises env q b.2 → a.2 = b.2

/-- At most one provider of the schemes raises in its challenge. -/
def OneChallengeRaises (q : HttpRequest) (schemes : List (String × String)) : Prop :=
  ∀ a ∈ schemes, ∀ b ∈ schemes, ∀ provider provider' e e', env a.2 = some provider →
    env b.2 = some provider' → provider.challenge q = .error e →
    provider'.challenge q = .error e' → a.2 = b.2

/-- The credential the provider of a scheme finds, with the provider. -/
def credentialOf (q : HttpRequest) (scheme : String × String) : Option (String × Cred) :=
  match env scheme.2 with
  | none => none
  | some provider =>
    match provider.extract q with
    | .ok credential => credential.map fun c => (scheme.2, c)
    | .error _ => none

/-- The credentials the schemes find. -/
def credentials (q : HttpRequest) (schemes : List (String × String)) : List (String × Cred) :=
  schemes.filterMap (credentialOf env q)

/-! ## The same outcome -/

/-- Two failures with one status, code and message, whose challenges are the same up to
order. -/
inductive SameFailure : Exn → Exn → Prop
  | same (e : Exn) : SameFailure e e
  | challenged {challenges challenges' : List String} (h : challenges.Perm challenges') :
      SameFailure (authenticationRequired (wwwAuthenticate challenges))
        (authenticationRequired (wwwAuthenticate challenges'))

def SameOutcome : Except Exn Unit → Except Exn Unit → Prop
  | .ok _, .ok _ => True
  | .error e, .error e' => SameFailure e e'
  | _, _ => False

/-- The two runs leave one request, made one verification and ended alike. -/
structure SameRun (run run' : AuthRun Cred) : Prop where
  session : run'.session = run.session
  verified : run'.verified = run.verified
  outcome : SameOutcome run.outcome run'.outcome

theorem SameOutcome.refl (outcome : Except Exn Unit) : SameOutcome outcome outcome := by
  cases outcome with
  | ok _ => trivial
  | error e => exact .same e

theorem SameRun.refl (run : AuthRun Cred) : SameRun run run := ⟨rfl, rfl, SameOutcome.refl _⟩

variable {env}

/-! ## One scheme -/

theorem extraction_some {q : HttpRequest} {scheme : String × String}
    {provider : Authenticator Cred} {model : String} {credential : Cred}
    (h : extraction env q scheme = .ok (some (provider, model, credential))) :
    env model = some provider := by
  unfold extraction at h
  split at h
  · cases h
  · next provider' hprovider =>
    split at h
    · cases h
    · next found _ =>
      cases found with
      | none => cases h
      | some c =>
        cases h
        exact hprovider

/-- A round of the loop ends well exactly where the provider does not raise. -/
theorem extraction_ok_iff {q : HttpRequest} {scheme : String × String} :
    (∃ b, extraction env q scheme = .ok b) ↔ ¬ Raises env q scheme.2 := by
  unfold extraction Raises
  cases hp : env scheme.2 with
  | none => simp
  | some provider =>
    cases hx : provider.extract q with
    | ok c => simp [onlyRestAuthError, hx]
    | error e => cases e <;> simp [onlyRestAuthError, hx]

theorem raises_of_extraction {q : HttpRequest} {scheme : String × String} {e : Exn}
    (h : extraction env q scheme = .error e) : Raises env q scheme.2 := by
  by_contra hnot
  obtain ⟨b, hb⟩ := extraction_ok_iff.mpr hnot
  rw [h] at hb
  cases hb

theorem not_raises_of_extract {q : HttpRequest} {model : String} {provider : Authenticator Cred}
    (hprovider : env model = some provider) {credential : Option Cred}
    (h : provider.extract q = .ok credential) : ¬ Raises env q model := by
  intro hraises
  obtain ⟨e, he⟩ := hraises provider hprovider
  rw [h] at he
  cases he

/-- What a round finds is the credential of the scheme. -/
theorem found_extraction (q : HttpRequest) (scheme : String × String) :
    (Collect.found (extraction env q) scheme).map (·.2) = credentialOf env q scheme := by
  unfold Collect.found extraction credentialOf
  cases hp : env scheme.2 with
  | none => simp
  | some provider =>
    cases hx : provider.extract q with
    | ok c => cases c <;> simp [onlyRestAuthError, hx]
    | error e => cases e <;> simp [onlyRestAuthError, hx]

/-- Schemes of one provider fail alike. -/
theorem OneRaises.alike {q : HttpRequest} {schemes : List (String × String)}
    (h : OneRaises env q schemes) {a b : String × String} (ha : a ∈ schemes) (hb : b ∈ schemes)
    {e e' : Exn} (he : extraction env q a = .error e) (he' : extraction env q b = .error e') :
    e = e' := by
  have hsame : extraction env q a = extraction env q b := by
    unfold extraction
    rw [h a ha b hb (raises_of_extraction he) (raises_of_extraction he')]
  rw [he, he'] at hsame
  exact Except.error.inj hsame

theorem challengeOf_error {q : HttpRequest} {scheme : String × String} {e : Exn}
    (h : challengeOf env q scheme = .error e) {provider : Authenticator Cred}
    (hprovider : env scheme.2 = some provider) : provider.challenge q = .error e := by
  unfold challengeOf at h
  rw [hprovider] at h
  dsimp only at h
  split at h
  · next hc =>
    cases h
    exact hc
  · cases h

/-- Once no provider has raised, schemes of one provider challenge alike. -/
theorem OneChallengeRaises.alike {q : HttpRequest} {schemes : List (String × String)}
    (h : OneChallengeRaises env q schemes) (hok : ∀ a ∈ schemes, ¬ Raises env q a.2)
    {a b : String × String} (ha : a ∈ schemes) (hb : b ∈ schemes) {e e' : Exn}
    (he : challengeOf env q a = .error e) (he' : challengeOf env q b = .error e') : e = e' := by
  have hprovider : ∀ c ∈ schemes, ∃ provider, env c.2 = some provider := by
    intro c hc
    have hraises := hok c hc
    unfold Raises at hraises
    simp only [not_forall] at hraises
    obtain ⟨provider, hp, -⟩ := hraises
    exact ⟨provider, hp⟩
  obtain ⟨provider, hp⟩ := hprovider a ha
  obtain ⟨provider', hp'⟩ := hprovider b hb
  have hsame := h a ha b hb provider provider' e e' hp hp' (challengeOf_error he hp)
    (challengeOf_error he' hp')
  have heq : challengeOf env q a = challengeOf env q b := by
    unfold challengeOf
    rw [hsame]
  rw [he, he'] at heq
  exact Except.error.inj heq

/-! ## The loop -/

theorem credentials_of_run {q : HttpRequest} {schemes : List (String × String)}
    {found : List (Authenticator Cred × String × Cred)}
    (h : Collect.run (extraction env q) schemes = .ok found) :
    (∀ a ∈ schemes, ¬ Raises env q a.2) ∧ credentials env q schemes = found.map (·.2) := by
  obtain ⟨hall, rfl⟩ := Collect.run_ok_iff.mp h
  refine ⟨fun a ha => extraction_ok_iff.mp (hall a ha), ?_⟩
  rw [List.map_filterMap]
  exact List.filterMap_congr fun a _ => (found_extraction q a).symm

/-- A permutation of the schemes changes the order of the challenges at most. -/
theorem authMethod_perm {schemes schemes' : List (String × String)} (hperm : schemes.Perm schemes')
    {q : HttpRequest} (hone : OneRaises env q schemes)
    (hchallenge : credentials env q schemes = [] → OneChallengeRaises env q schemes)
    (s : Session) : SameRun (authMethod env schemes q s) (authMethod env schemes' q s) := by
  have hcollect := Collect.run_perm hperm fun a ha b hb e e' he he' => hone.alike ha hb he he'
  unfold authMethod
  rcases hcollect with ⟨e, h, h'⟩ | ⟨bs, bs', h, h', hbs⟩
  · rw [h, h']
    exact SameRun.refl _
  · obtain ⟨hok, hcredentials⟩ := credentials_of_run h
    rw [h, h']
    match bs, bs', hbs with
    | [], bs', hbs =>
      obtain rfl := hbs.nil_eq
      have hone := hchallenge hcredentials
      rcases Collect.run_perm hperm fun a ha b hb e e' he he' => hone.alike hok ha hb he he' with
        ⟨e, hc, hc'⟩ | ⟨cs, cs', hc, hc', hcs⟩
      · rw [hc, hc']
        exact SameRun.refl _
      · rw [hc, hc']
        exact ⟨rfl, rfl, .challenged hcs⟩
    | [b], bs', hbs =>
      obtain rfl := List.singleton_perm.mp hbs
      exact SameRun.refl _
    | b :: c :: bs, bs', hbs =>
      -- a permutation of two credentials or more has two or more
      obtain ⟨b', c', cs, rfl⟩ : ∃ b' c' cs, bs' = b' :: c' :: cs := by
        match bs', hbs.length_eq with
        | b' :: c' :: cs, _ => exact ⟨b', c', cs, rfl⟩
      exact ⟨rfl, rfl, .same _⟩

/-! ## When a verification is made -/

/-- The credential of the one scheme that finds one is verified, and no other. -/
theorem verified_eq_iff {q : HttpRequest} {schemes : List (String × String)} {s : Session}
    {model : String} {credential : Cred} :
    (authMethod env schemes q s).verified = [(model, credential)] ↔
      (∀ a ∈ schemes, ¬ Raises env q a.2) ∧
        credentials env q schemes = [(model, credential)] := by
  unfold authMethod
  cases h : Collect.run (extraction env q) schemes with
  | error e =>
    refine iff_of_false (fun he => by cases he) fun he => ?_
    have hok := Collect.run_ok_iff.mpr ⟨fun a ha => extraction_ok_iff.mpr (he.1 a ha), rfl⟩
    rw [h] at hok
    cases hok
  | ok found =>
    obtain ⟨hall, hcredentials⟩ := credentials_of_run h
    rw [hcredentials]
    match found with
    | [] =>
      dsimp only
      split <;> simp
    | [(provider, model', credential')] =>
      dsimp only
      split <;> simpa using fun _ _ => hall
    | b :: c :: found => simp

theorem verified_length (schemes : List (String × String)) (q : HttpRequest) (s : Session) :
    (authMethod env schemes q s).verified.length ≤ 1 := by
  unfold authMethod
  split
  · exact Nat.zero_le 1
  · split <;> exact Nat.zero_le 1
  · split <;> exact Nat.le_refl 1
  · exact Nat.zero_le 1

/-- The request is as before, or as the result of the one verification sets it. -/
theorem session_changes (schemes : List (String × String)) (q : HttpRequest) (s : Session) :
    (authMethod env schemes q s).session = s ∨
      ∃ model credential provider result,
        (authMethod env schemes q s).verified = [(model, credential)] ∧
          env model = some provider ∧ provider.verify credential = .ok result ∧
          (authMethod env schemes q s).session = Session.authenticated result := by
  unfold authMethod
  split
  · exact Or.inl rfl
  · split <;> exact Or.inl rfl
  · next provider model credential h =>
    split
    · exact Or.inl rfl
    · next result hverify =>
      obtain ⟨a, -, ha⟩ := Collect.exists_of_mem_run h (List.mem_singleton_self _)
      exact Or.inr ⟨model, credential, provider, result, rfl, extraction_some ha,
        onlyRestAuthError_ok_iff.mp hverify, rfl⟩
  · exact Or.inl rfl

end

/-! ## Any order of the schemes -/

/-- The database with other sequence numbers on its schemes. -/
def resequenced (db : Database) (sequence : Row Scheme → Int) : Database :=
  { db with schemes := db.schemes.map fun s => ⟨s.id, { s.val with sequence := sequence s }⟩ }

theorem getActiveSchemes_perm (schemes : List (Row Scheme)) :
    (getActiveSchemes schemes).Perm
      ((schemes.filter fun s => s.val.active).map fun s => (s.val.code, s.val.providerModel)) :=
  (List.perm_insertionSort _ _).map _

theorem candidateSchemes_resequenced (db : Database) (route : Route)
    (sequence : Row Scheme → Int) :
    (candidateSchemes db route).Perm (candidateSchemes (resequenced db sequence) route) := by
  have hactive : (getActiveSchemes db.schemes).Perm
      (getActiveSchemes (resequenced db sequence).schemes) := by
    refine (getActiveSchemes_perm _).trans (List.Perm.trans (List.Perm.of_eq ?_)
      (getActiveSchemes_perm _).symm)
    simp [resequenced, List.filter_map, Function.comp_def]
  unfold candidateSchemes
  split
  · exact hactive
  · exact hactive.filter _

/-- Any other sequence numbers give the same run. -/
def SelectsAlike {Cred : Type} (env : String → Option (Authenticator Cred)) (db : Database)
    (route : Route) (q : HttpRequest) (s : Session) : Prop :=
  ∀ sequence : Row Scheme → Int, SameRun (authMethod env (candidateSchemes db route) q s)
    (authMethod env (candidateSchemes (resequenced db sequence) route) q s)

/-- **Scheme selection.**  Whatever the sequence of the schemes, a request at whose extraction
one provider raises at most, and without credentials one at most in its challenge, ends the same
but for the order of the challenges; a verification is made exactly when one scheme finds a
credential and none raises, with its provider; and the request changes only by a verification
that returned. -/
theorem scheme_selection {Cred : Type} (env : String → Option (Authenticator Cred))
    (db : Database) (route : Route) (q : HttpRequest) (s : Session) :
    (OneRaises env q (candidateSchemes db route) →
      (credentials env q (candidateSchemes db route) = [] →
        OneChallengeRaises env q (candidateSchemes db route)) →
      SelectsAlike env db route q s) ∧
    (authMethod env (candidateSchemes db route) q s).verified.length ≤ 1 ∧
    (∀ model credential,
      (authMethod env (candidateSchemes db route) q s).verified = [(model, credential)] ↔
        (∀ a ∈ candidateSchemes db route, ¬ Raises env q a.2) ∧
          credentials env q (candidateSchemes db route) = [(model, credential)]) ∧
    ((authMethod env (candidateSchemes db route) q s).session = s ∨
      ∃ model credential provider result,
        (authMethod env (candidateSchemes db route) q s).verified = [(model, credential)] ∧
          env model = some provider ∧ provider.verify credential = .ok result ∧
          (authMethod env (candidateSchemes db route) q s).session =
            Session.authenticated result) :=
  ⟨fun hone hchallenge sequence =>
    authMethod_perm (candidateSchemes_resequenced db route sequence) hone hchallenge s,
   verified_length _ q s, fun _ _ => verified_eq_iff, session_changes _ q s⟩

/-- The providers of a site, verifying against a database. -/
def siteAuthenticators (site : Site) (db : Database) (model : String) :
    Option (Authenticator Presented) :=
  (site.registry model).map fun p =>
    ⟨p.extract, restAuthVerify site.services db, fun _ => .ok (some p.challenge)⟩

/-- The database with two schemes. -/
def twoSchemesDatabase (first second : String) : Database :=
  { scopedDatabase with
    schemes := [⟨0, ⟨"first", first, 10, true⟩⟩, ⟨1, ⟨"second", second, 20, true⟩⟩] }

/-- The site with a second provider, which finds no credential. -/
def twoSchemesSite : Site :=
  { sampleSite with
    registry := fun model =>
      if model = "auth_header" then some ⟨fun _ => .ok none, "Header"⟩
      else sampleSite.registry model }

/-- The key of user 7 is verified whichever scheme comes first. -/
theorem scheme_selection_keyed :
    let db := twoSchemesDatabase "ssi_rest_auth_apikey" "auth_header"
    let run := authMethod (siteAuthenticators twoSchemesSite db)
      (candidateSchemes (resequenced db fun s => -s.val.sequence) sampleRoute) keyedRequest
      ⟨none, true, none⟩
    run.verified = [("ssi_rest_auth_apikey", .apikey (ApiKey.rawKey Platform.sample 0))] ∧
      run.session = Session.authenticated ⟨7, "apikey", [1], [], none⟩ := by
  intro db run
  have hmodels : ∀ a ∈ candidateSchemes db sampleRoute,
      a.2 = "ssi_rest_auth_apikey" ∨ a.2 = "auth_header" := by decide
  have hraises : ∀ a ∈ candidateSchemes db sampleRoute,
      ¬ Raises (siteAuthenticators twoSchemesSite db) keyedRequest a.2 := by
    intro a ha
    rcases hmodels a ha with hm | hm
    · exact hm ▸ not_raises_of_extract rfl rfl
    · exact hm ▸ not_raises_of_extract rfl rfl
  have h := (scheme_selection (siteAuthenticators twoSchemesSite db) db sampleRoute keyedRequest
    ⟨none, true, none⟩).1 (fun a ha _ _ hr => absurd hr (hraises a ha)) (fun h => by cases h)
    fun s => -s.val.sequence
  exact ⟨h.verified.trans rfl, h.session.trans rfl⟩

/-- A provider without a credential. -/
def withoutCredential (challenge : Except Exn (Option String)) : Authenticator Presented where
  extract _ := .ok none
  verify _ := .error (invalidCredential "No credential.")
  challenge _ := challenge

/-- Two such providers: one has no challenge implemented, the other refuses to give one. -/
def unchallenging (model : String) : Option (Authenticator Presented) :=
  if model = "auth_unfinished" then
    some (withoutCredential (.error (.python "NotImplementedError")))
  else if model = "auth_throttled" then
    some (withoutCredential (.error (RestAuthError "throttled" "Try again later." 429)))
  else none

/-- Neither raises in its extraction, and the order of the schemes tells which of the two
exceptions the request ends with. -/
theorem not_selectsAlike :
    let db := twoSchemesDatabase "auth_unfinished" "auth_throttled"
    OneRaises unchallenging keyedRequest (candidateSchemes db sampleRoute) ∧
      ¬ SelectsAlike unchallenging db sampleRoute keyedRequest ⟨none, true, none⟩ := by
  intro db
  constructor
  · intro a ha _ _ hr
    have hmodels : ∀ a ∈ candidateSchemes db sampleRoute,
        a.2 = "auth_unfinished" ∨ a.2 = "auth_throttled" := by decide
    rcases hmodels a ha with hm | hm
    · exact absurd (hm ▸ hr) (not_raises_of_extract rfl rfl)
    · exact absurd (hm ▸ hr) (not_raises_of_extract rfl rfl)
  · intro h
    have h := (h fun s => -s.val.sequence).outcome
    have hfirst : (authMethod unchallenging (candidateSchemes db sampleRoute) keyedRequest
        ⟨none, true, none⟩).outcome = .error (.python "NotImplementedError") := rfl
    have hsecond : (authMethod unchallenging
        (candidateSchemes (resequenced db fun s => -s.val.sequence) sampleRoute) keyedRequest
        ⟨none, true, none⟩).outcome =
          .error (RestAuthError "throttled" "Try again later." 429) := rfl
    rw [hfirst, hsecond] at h
    cases h

/-! ## The providers of a site -/

theorem extractAll_eq (site : Site) (db : Database) (q : HttpRequest)
    (schemes : List (String × String)) :
    extractAll site.registry q schemes =
      (Collect.run (extraction (siteAuthenticators site db) q) schemes).map
        (List.map fun found => found.2.2) := by
  induction schemes with
  | nil => rfl
  | cons scheme schemes ih =>
    obtain ⟨code, model⟩ := scheme
    unfold extractAll Collect.run
    cases hp : site.registry model with
    | none =>
      have hstep : extraction (siteAuthenticators site db) q (code, model) =
          .error (.python "KeyError") := by
        simp [extraction, siteAuthenticators, hp]
      rw [hstep]
      rfl
    | some p =>
      cases hcredential : onlyRestAuthError (p.extract q) with
      | error e =>
        have hstep : extraction (siteAuthenticators site db) q (code, model) = .error e := by
          simp [extraction, siteAuthenticators, hp, hcredential]
        rw [hstep]
        simp [bind, Except.bind, Except.map, hcredential]
      | ok credential =>
        have hstep : extraction (siteAuthenticators site db) q (code, model) =
            .ok (credential.map fun c =>
              (⟨p.extract, restAuthVerify site.services db, fun _ => .ok (some p.challenge)⟩,
                model, c)) := by
          simp [extraction, siteAuthenticators, hp, hcredential]
        rw [hstep]
        simp only [bind, Except.bind, hcredential, ih]
        cases Collect.run (extraction (siteAuthenticators site db) q) schemes with
        | error e => rfl
        | ok found => cases credential <;> rfl

/-- Once no round of the extraction loop has failed, the challenges are those of the site. -/
theorem run_challengeOf {site : Site} {db : Database} {q : HttpRequest}
    {schemes : List (String × String)}
    (hok : ∀ a ∈ schemes, ¬ Raises (siteAuthenticators site db) q a.2) :
    (Collect.run (challengeOf (siteAuthenticators site db) q) schemes).map wwwAuthenticate =
      .ok (challengeHeaders site.registry schemes) := by
  have hstep : ∀ a ∈ schemes, challengeOf (siteAuthenticators site db) q a =
      .ok (((site.registry a.2).map (·.challenge)).filter (· ≠ "")) := by
    intro a ha
    unfold challengeOf siteAuthenticators
    cases hp : site.registry a.2 with
    | none =>
      refine absurd (fun provider hprovider => ?_) (hok a ha)
      simp [siteAuthenticators, hp] at hprovider
    | some p => rfl
  have hrun : Collect.run (challengeOf (siteAuthenticators site db) q) schemes =
      .ok ((schemes.filterMap fun s => (site.registry s.2).map (·.challenge)).filter (· ≠ "")) := by
    refine Collect.run_ok_iff.mpr ⟨fun a ha => ⟨_, hstep a ha⟩, ?_⟩
    rw [List.filter_filterMap]
    refine List.filterMap_congr fun a ha => ?_
    rw [Collect.found, hstep a ha]
  rw [hrun]
  rfl

/-- The method over the providers of a site ends as `authMethodSsiRest` does, and sets the
request to its result. -/
theorem authMethod_eq_authMethodSsiRest (site : Site) (db : Database) (route : Route)
    (q : HttpRequest) (s : Session) :
    (authMethod (siteAuthenticators site db) (candidateSchemes db route) q s).outcome =
        (authMethodSsiRest site db route q).map (fun _ => ()) ∧
      (authMethod (siteAuthenticators site db) (candidateSchemes db route) q s).session =
        match authMethodSsiRest site db route q with
        | .ok result => Session.authenticated result
        | .error _ => s := by
  unfold authMethod authMethodSsiRest
  dsimp only
  rw [extractAll_eq site db]
  cases h : Collect.run (extraction (siteAuthenticators site db) q) (candidateSchemes db route)
    with
  | error e => exact ⟨rfl, rfl⟩
  | ok found =>
    match found, h with
    | [], h =>
      have hchallenges := run_challengeOf (credentials_of_run h).1
      dsimp only
      cases hc : Collect.run (challengeOf (siteAuthenticators site db) q)
          (candidateSchemes db route) with
      | error e =>
        rw [hc] at hchallenges
        cases hchallenges
      | ok challenges =>
        rw [hc] at hchallenges
        rw [← Except.ok.inj hchallenges]
        exact ⟨rfl, rfl⟩
    | [(provider, model, credential)], h =>
      obtain ⟨a, -, ha⟩ := Collect.exists_of_mem_run h (List.mem_singleton_self _)
      obtain ⟨p, -, rfl⟩ := Option.map_eq_some_iff.mp (extraction_some ha)
      simp only [Except.map, List.map_cons, List.map_nil, bind, Except.bind]
      cases onlyRestAuthError (restAuthVerify site.services db credential) with
      | error e => exact ⟨rfl, rfl⟩
      | ok result => exact ⟨rfl, rfl⟩
    | b :: c :: found, _ => exact ⟨rfl, rfl⟩

end SsiRest
