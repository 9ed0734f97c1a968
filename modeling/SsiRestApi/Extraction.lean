import SsiRestApi.Lib.Base64
import SsiRestApi.Lib.JsonText
import SsiRestApi.SchemeSelection

/-!
# The Authorization header

`_rest_auth_extract` of the four providers that read it, and the providers the modules
ship.  The jwt provider recognizes a token by its shape, down to the JSON object of its
first segment.

    at most one of basic, jwt and oauth2 claims a header: `sot_` is no JSON   (not_looksLikeJwt)
    every issued token is for oauth2, every compact JWS for jwt
                                                            (authorization_shapes)
-/

namespace SsiRest

open Py Tx

/-- `header[len(prefix):].strip()` of an `Authorization` header with this prefix. -/
def authorizationValue (q : HttpRequest) (pre : String) : Option String :=
  match q.header "Authorization" with
  | none => none
  | some header =>
    if header = "" ∨ startsWith header pre = false then none
    else some (strip (dropChars header pre.toList.length))

/-! ## Providers -/

def malformedBasic : Exn :=
  RestAuthError "malformed_credential" "Malformed Basic Authorization header." 400

/-- `ssi_rest_auth_basic`.  Its handler leaves out the `ValueError` of a text that is not
ASCII. -/
def ssiRestAuthBasic : Provider where
  extract q :=
    match authorizationValue q "Basic " with
    | none => .ok none
    | some encoded =>
      match b64decode encoded with
      | .error .notAscii => .error (.python "ValueError")
      | .error .binascii => .error malformedBasic
      | .ok data =>
        match decodeUtf8 data with
        | none => .error malformedBasic
        | some decoded =>
          if decoded.toList.contains ':' then
            .ok (some (.basic (partition ':' decoded).1 (partition ':' decoded).2))
          else .error malformedBasic
  challenge := "Basic realm=\"ssi_rest\""

/-- A bearer token of the shape a provider looks for. -/
def extractBearer (shape : String → Bool) (make : String → Presented) (q : HttpRequest) :
    Except Exn (Option Presented) :=
  match authorizationValue q "Bearer " with
  | none => .ok none
  | some token =>
    .ok (if token = "" ∨ shape token = false then none else some (make token))

/-- `ssi_rest_auth_bearer`: any token. -/
def ssiRestAuthBearer : Provider where
  extract := extractBearer (fun _ => true) .bearer
  challenge := "Bearer"

/-- `_JWT_SEGMENT_RE.match(part)`, whose `$` also matches ahead of a final newline. -/
def matchesSegment (part : String) : Bool :=
  let cs := if part.toList.getLast? = some '\n' then part.toList.dropLast else part.toList
  !cs.isEmpty && cs.all fun c =>
    ('A' ≤ c && c ≤ 'Z') || ('a' ≤ c && c ≤ 'z') || ('0' ≤ c && c ≤ '9') || c == '_' || c == '-'

/-- `_b64url_decode(segment)`. -/
def b64urlDecode (segment : String) : Except B64Error (List UInt8) :=
  urlsafeB64decode
    (String.ofList (segment.toList ++ List.replicate (padding segment.toList.length) '='))

/-- The first segment is a JSON object with a member `alg`. -/
def hasAlg (segment : String) : Bool :=
  match b64urlDecode segment with
  | .error _ => false
  | .ok data =>
    match Doc.loads data with
    | none => false
    | some header => header.hasMember "alg"

/-- `_looks_like_jwt(token)`. -/
def looksLikeJwt (token : String) : Bool :=
  let parts := splitOn '.' token
  if parts.length ≠ 3 ∨ parts.any (· == "") then false
  else if !parts.all matchesSegment then false
  else hasAlg (parts.headD "")

/-- `ssi_rest_auth_jwt`. -/
def ssiRestAuthJwt : Provider where
  extract := extractBearer looksLikeJwt .jwt
  challenge := "Bearer realm=\"ssi_rest\""

/-- `ssi_rest_auth_oauth2`: a token with the prefix of the issued ones. -/
def ssiRestAuthOauth2 : Provider where
  extract := extractBearer (fun token => startsWith token Oauth.tokenPrefix) .oauth2
  challenge := "Bearer realm=\"ssi_rest\""

/-- The providers of the modules, by their model names. -/
def restAuthenticators : List (String × Provider) :=
  [("ssi_rest_auth_basic", ssiRestAuthBasic), ("ssi_rest_auth_bearer", ssiRestAuthBearer),
   ("ssi_rest_auth_apikey", ssiRestAuthApikey), ("ssi_rest_auth_jwt", ssiRestAuthJwt),
   ("ssi_rest_auth_oauth2", ssiRestAuthOauth2)]

/-- The provider finds a credential. -/
def Provider.claims (p : Provider) (q : HttpRequest) : Bool :=
  match p.extract q with
  | .ok (some _) => true
  | _ => false

/-! ## The header -/

theorem authorizationValue_some {q : HttpRequest} {pre value : String}
    (h : authorizationValue q pre = some value) :
    ∃ t, q.header "Authorization" = some (pre ++ t) ∧ value = strip t := by
  unfold authorizationValue at h
  split at h
  · cases h
  · next header hheader =>
    split at h
    · cases h
    · next hcond =>
      rw [not_or, Bool.not_eq_false] at hcond
      obtain ⟨t, rfl⟩ := exists_of_startsWith hcond.2
      rw [dropChars_append] at h
      cases h
      exact ⟨t, hheader, rfl⟩

theorem authorizationValue_append {q : HttpRequest} {pre t : String} (hpre : pre ≠ "")
    (h : q.header "Authorization" = some (pre ++ t)) :
    authorizationValue q pre = some (strip t) := by
  unfold authorizationValue
  rw [h]
  dsimp only
  rw [if_neg, dropChars_append]
  rw [not_or, Bool.not_eq_false]
  refine ⟨fun he => hpre ?_, startsWith_append pre t⟩
  have he := congrArg String.toList he
  rw [String.toList_append, String.toList_empty] at he
  exact String.toList_eq_nil_iff.mp (List.append_eq_nil_iff.mp he).1

/-- A header is either a Basic or a Bearer one. -/
theorem authorizationValue_basic_bearer {q : HttpRequest} {a b : String}
    (ha : authorizationValue q "Basic " = some a) (hb : authorizationValue q "Bearer " = some b) :
    False := by
  obtain ⟨s, hs, -⟩ := authorizationValue_some ha
  obtain ⟨t, ht, -⟩ := authorizationValue_some hb
  rw [hs] at ht
  have h := congrArg String.toList (Option.some.inj ht)
  rw [String.toList_append, String.toList_append] at h
  have h2 := congrArg (fun l => l[1]?) h
  exact absurd h2 (by simp)

/-! ## What the providers claim -/

theorem basic_claims {q : HttpRequest} (h : ssiRestAuthBasic.claims q = true) :
    ∃ value, authorizationValue q "Basic " = some value := by
  unfold Provider.claims ssiRestAuthBasic at h
  dsimp only at h
  cases hvalue : authorizationValue q "Basic " with
  | none => simp [hvalue] at h
  | some value => exact ⟨value, rfl⟩

theorem extractBearer_some_iff {shape : String → Bool} {make : String → Presented}
    {q : HttpRequest} {credential : Presented} :
    extractBearer shape make q = .ok (some credential) ↔
      ∃ token, authorizationValue q "Bearer " = some token ∧ token ≠ "" ∧ shape token = true ∧
        credential = make token := by
  unfold extractBearer
  cases hvalue : authorizationValue q "Bearer " with
  | none => exact iff_of_false (fun h => by cases h) fun ⟨_, h, _⟩ => by cases h
  | some token =>
    dsimp only
    constructor
    · intro h
      split at h
      · cases h
      · next hcond =>
        cases h
        rw [not_or, Bool.not_eq_false] at hcond
        exact ⟨token, rfl, hcond.1, hcond.2, rfl⟩
    · rintro ⟨t, ht, hne, hshape, rfl⟩
      cases ht
      rw [if_neg (by simp [hne, hshape])]

/-- What a provider of bearer tokens claims has its shape. -/
theorem Provider.claims_bearer {p : Provider} {shape : String → Bool}
    {make : String → Presented} (hp : p.extract = extractBearer shape make) {q : HttpRequest}
    (h : p.claims q = true) :
    ∃ token, authorizationValue q "Bearer " = some token ∧ shape token = true := by
  unfold Provider.claims at h
  split at h
  · next credential hcredential =>
    rw [hp] at hcredential
    obtain ⟨token, htoken, -, hshape, -⟩ := extractBearer_some_iff.mp hcredential
    exact ⟨token, htoken, hshape⟩
  · cases h

/-! ## Issued tokens do not look like a JWT -/

/-- The bytes `sot_` decodes to start no text. -/
theorem not_hasAlg (rest : String) : hasAlg (Oauth.tokenPrefix ++ rest) = false := by
  unfold hasAlg
  split
  · rfl
  · next data hdata =>
    have hprefix : Oauth.tokenPrefix.toList = ['s', 'o', 't', '_'] := by decide
    have hloop := a2bLoop_of_urlsafeB64decode hdata
    rw [String.toList_append, hprefix, List.map_append, List.map_append] at hloop
    have hstart : ∀ bs, a2bLoop (['s', 'o', 't', '_'].map urlsafeByte ++ bs) 0 0 0 [] =
        a2bLoop bs 0 0 0 [0xb2, 0x8b, 0x7f] := fun bs => by rfl
    rw [List.append_assoc, hstart] at hloop
    obtain ⟨tail, rfl⟩ := prefix_of_a2bLoop hloop
    have hnone : Doc.loads ([0xb2, 0x8b, 0x7f] ++ tail) = none := by
      unfold Doc.loads
      rw [List.cons_append, List.cons_append,
        decodeDetected_continuation (by decide) (by decide) (by decide)]
      rfl
    rw [hnone]

theorem not_looksLikeJwt {token : String} (h : startsWith token Oauth.tokenPrefix = true) :
    looksLikeJwt token = false := by
  obtain ⟨t, rfl⟩ := exists_of_startsWith h
  have hdot : '.' ∉ Oauth.tokenPrefix.toList := by decide
  obtain ⟨head, rest, hsplit⟩ := splitOn_append hdot t
  unfold looksLikeJwt
  simp only [hsplit, List.headD_cons, not_hasAlg]
  split
  · rfl
  · split <;> rfl

/-- The providers that read the header for credentials of a shape of their own. -/
def shapedProviders : List Provider := [ssiRestAuthBasic, ssiRestAuthJwt, ssiRestAuthOauth2]

theorem not_basic_and_bearer {p : Provider} {shape : String → Bool}
    {make : String → Presented} (hp : p.extract = extractBearer shape make) {q : HttpRequest}
    (hbasic : ssiRestAuthBasic.claims q = true) : p.claims q = false := by
  by_contra h
  rw [Bool.not_eq_false] at h
  obtain ⟨value, hvalue⟩ := basic_claims hbasic
  obtain ⟨token, htoken, -⟩ := Provider.claims_bearer hp h
  exact authorizationValue_basic_bearer hvalue htoken

theorem not_jwt_and_oauth2 {q : HttpRequest} (hjwt : ssiRestAuthJwt.claims q = true) :
    ssiRestAuthOauth2.claims q = false := by
  by_contra h
  rw [Bool.not_eq_false] at h
  obtain ⟨token, htoken, hshape⟩ := Provider.claims_bearer rfl hjwt
  obtain ⟨token', htoken', hshape'⟩ := Provider.claims_bearer rfl h
  rw [htoken] at htoken'
  cases htoken'
  rw [not_looksLikeJwt hshape'] at hshape
  cases hshape

theorem shapedProviders_disjoint (q : HttpRequest) :
    shapedProviders.countP (fun p => p.claims q) ≤ 1 := by
  simp only [shapedProviders, List.countP_cons, List.countP_nil]
  by_cases hbasic : ssiRestAuthBasic.claims q = true
  · rw [not_basic_and_bearer (p := ssiRestAuthJwt) rfl hbasic,
      not_basic_and_bearer (p := ssiRestAuthOauth2) rfl hbasic, hbasic]
    decide
  · rw [Bool.not_eq_true] at hbasic
    by_cases hjwt : ssiRestAuthJwt.claims q = true
    · rw [not_jwt_and_oauth2 hjwt, hjwt, hbasic]
      decide
    · rw [Bool.not_eq_true] at hjwt
      rw [hjwt, hbasic]
      split <;> decide

/-! ## One credential -/

theorem length_extractAll {registry : String → Option Provider} {q : HttpRequest}
    {schemes : List (String × String)} {extracted : List Presented}
    (h : extractAll registry q schemes = .ok extracted) :
    extracted.length = schemes.countP fun s => (registry s.2).any fun p => p.claims q := by
  induction schemes generalizing extracted with
  | nil =>
    cases h
    rfl
  | cons scheme schemes ih =>
    obtain ⟨code, model⟩ := scheme
    unfold extractAll at h
    split at h
    · cases h
    · next provider hprovider =>
      obtain ⟨credential, hcredential, h⟩ := bind_ok_iff.mp h
      obtain ⟨rest, hrest, h⟩ := bind_ok_iff.mp h
      cases h
      have hclaims : provider.claims q = credential.isSome := by
        unfold Provider.claims
        rw [onlyRestAuthError_ok_iff.mp hcredential]
        cases credential <;> rfl
      rw [List.length_append, ih hrest, List.countP_cons, hprovider, Option.any_some, hclaims]
      cases credential with
      | none => simp
      | some c =>
        simp only [Option.toList_some, List.length_singleton, Option.isSome_some, if_true]
        omega

/-- Items of pairwise different keys of which only one key counts. -/
theorem countP_le_one {α β : Type} {f : α → β} {p : β → Bool} {l : List α}
    (hnodup : (l.map f).Nodup)
    (huniq : ∀ a ∈ l, ∀ b ∈ l, p (f a) = true → p (f b) = true → f a = f b) :
    (l.countP fun a => p (f a)) ≤ 1 := by
  induction l with
  | nil => exact Nat.zero_le 1
  | cons a l ih =>
    rw [List.map_cons, List.nodup_cons] at hnodup
    rw [List.countP_cons]
    have hrest := ih hnodup.2 fun b hb c hc =>
      huniq b (List.mem_cons_of_mem _ hb) c (List.mem_cons_of_mem _ hc)
    by_cases ha : p (f a) = true
    · have hzero : (l.countP fun a => p (f a)) = 0 := by
        rw [List.countP_eq_zero]
        intro b hb hpb
        have he := huniq a List.mem_cons_self b (List.mem_cons_of_mem _ hb) ha hpb
        exact hnodup.1 (he ▸ List.mem_map_of_mem hb)
      rw [hzero, if_pos ha]
    · rw [if_neg ha]
      exact hrest

theorem mem_of_lookup {model : String} {p : Provider}
    (h : restAuthenticators.lookup model = some p) : (model, p) ∈ restAuthenticators := by
  obtain ⟨before, after, hmem, -⟩ := List.lookup_eq_some_iff.mp h
  rw [hmem]
  simp

/-- Which providers but bearer can claim a request without `X-Api-Key`. -/
theorem model_of_claims {q : HttpRequest} (hkey : q.header "X-Api-Key" = none) {model : String}
    (hbearer : model ≠ "ssi_rest_auth_bearer")
    (h : (restAuthenticators.lookup model).any (fun p => p.claims q) = true) :
    (model = "ssi_rest_auth_basic" ∧ ssiRestAuthBasic.claims q = true) ∨
      (model = "ssi_rest_auth_jwt" ∧ ssiRestAuthJwt.claims q = true) ∨
      (model = "ssi_rest_auth_oauth2" ∧ ssiRestAuthOauth2.claims q = true) := by
  obtain ⟨p, hp, hclaims⟩ := (Option.any_eq_true _ _).mp h
  have hmem := mem_of_lookup hp
  simp only [restAuthenticators, List.mem_cons, Prod.mk.injEq, List.not_mem_nil, or_false] at hmem
  rcases hmem with ⟨rfl, rfl⟩ | ⟨rfl, rfl⟩ | ⟨rfl, rfl⟩ | ⟨rfl, rfl⟩ | ⟨rfl, rfl⟩
  · exact Or.inl ⟨rfl, hclaims⟩
  · exact absurd rfl hbearer
  · have hnone : ssiRestAuthApikey.claims q = false := by
      unfold Provider.claims ssiRestAuthApikey
      dsimp only
      rw [hkey]
    rw [hnone] at hclaims
    cases hclaims
  · exact Or.inr (Or.inl ⟨rfl, hclaims⟩)
  · exact Or.inr (Or.inr ⟨rfl, hclaims⟩)

/-- Of these providers one at most claims a request. -/
theorem model_unique {q : HttpRequest} (hkey : q.header "X-Api-Key" = none)
    {model model' : String} (hbearer : model ≠ "ssi_rest_auth_bearer")
    (hbearer' : model' ≠ "ssi_rest_auth_bearer")
    (h : (restAuthenticators.lookup model).any (fun p => p.claims q) = true)
    (h' : (restAuthenticators.lookup model').any (fun p => p.claims q) = true) :
    model = model' := by
  have hjwt := fun hb : ssiRestAuthBasic.claims q = true =>
    not_basic_and_bearer (p := ssiRestAuthJwt) rfl hb
  have hoauth2 := fun hb : ssiRestAuthBasic.claims q = true =>
    not_basic_and_bearer (p := ssiRestAuthOauth2) rfl hb
  have hboth := fun hj : ssiRestAuthJwt.claims q = true => not_jwt_and_oauth2 hj
  rcases model_of_claims hkey hbearer h with ⟨rfl, hc⟩ | ⟨rfl, hc⟩ | ⟨rfl, hc⟩ <;>
    rcases model_of_claims hkey hbearer' h' with ⟨rfl, hc'⟩ | ⟨rfl, hc'⟩ | ⟨rfl, hc'⟩ <;>
    first | rfl | simp_all

/-- The schemes of the request are of the shipped providers, each once and without bearer. -/
structure DistinctSchemes (site : Site) (schemes : List (String × String)) : Prop where
  registry : site.registry = fun model => restAuthenticators.lookup model
  nodup : (schemes.map (·.2)).Nodup
  bearer : "ssi_rest_auth_bearer" ∉ schemes.map (·.2)

/-- A request without `X-Api-Key` presents one credential at most. -/
theorem length_extractAll_le_one {site : Site} {schemes : List (String × String)}
    (hschemes : DistinctSchemes site schemes) {q : HttpRequest}
    (hkey : q.header "X-Api-Key" = none) {extracted : List Presented}
    (h : extractAll site.registry q schemes = .ok extracted) : extracted.length ≤ 1 := by
  rw [length_extractAll h, hschemes.registry]
  refine countP_le_one (f := fun s : String × String => s.2)
    (p := fun model => (restAuthenticators.lookup model).any fun p => p.claims q)
    hschemes.nodup fun a ha b hb hclaims hclaims' => ?_
  have hne : ∀ s ∈ schemes, s.2 ≠ "ssi_rest_auth_bearer" := fun s hs he =>
    hschemes.bearer (he ▸ List.mem_map_of_mem hs)
  exact model_unique hkey (hne a ha) (hne b hb) hclaims hclaims'

/-- Extraction refuses malformed Basic credentials only. -/
theorem extract_error {model : String} {p : Provider} (hmem : (model, p) ∈ restAuthenticators)
    {q : HttpRequest} {e : Exn} (h : p.extract q = .error e) :
    e = .python "ValueError" ∨ e = malformedBasic := by
  have hbearer : ∀ shape make, extractBearer shape make q ≠ .error e := by
    intro shape make h
    unfold extractBearer at h
    split at h <;> cases h
  simp only [restAuthenticators, List.mem_cons, Prod.mk.injEq, List.not_mem_nil, or_false] at hmem
  rcases hmem with ⟨-, rfl⟩ | ⟨-, rfl⟩ | ⟨-, rfl⟩ | ⟨-, rfl⟩ | ⟨-, rfl⟩
  · unfold ssiRestAuthBasic at h
    dsimp only at h
    split at h
    · cases h
    · split at h
      · cases h
        exact Or.inl rfl
      · cases h
        exact Or.inr rfl
      · split at h
        · cases h
          exact Or.inr rfl
        · split at h
          · cases h
          · cases h
            exact Or.inr rfl
  · exact absurd h (hbearer _ _)
  · unfold ssiRestAuthApikey at h
    dsimp only at h
    split at h <;> cases h
  · exact absurd h (hbearer _ _)
  · exact absurd h (hbearer _ _)

theorem malformedBasic_ne : malformedBasic ≠ multipleCredentials := by
  simp [malformedBasic, multipleCredentials, RestAuthError]

theorem extractAll_ne_multipleCredentials {q : HttpRequest} {schemes : List (String × String)} :
    extractAll (fun model => restAuthenticators.lookup model) q schemes ≠
      .error multipleCredentials := by
  induction schemes with
  | nil => exact fun h => by cases h
  | cons scheme schemes ih =>
    intro h
    unfold extractAll at h
    split at h
    · cases h
    · next provider hprovider =>
      cases hextract : provider.extract q with
      | error e =>
        rw [hextract] at h
        rcases extract_error (mem_of_lookup hprovider) hextract with rfl | rfl
        · cases h
        · exact malformedBasic_ne (Except.error.inj h)
      | ok credential =>
        rw [hextract] at h
        cases hrest : extractAll (fun model => restAuthenticators.lookup model) q schemes with
        | error e =>
          rw [hrest] at h
          exact ih (hrest.trans (congrArg Except.error (Except.error.inj h)))
        | ok rest =>
          rw [hrest] at h
          cases h

theorem not_multipleCredentials {site : Site} (hcore : site.services.core.RaisesNoRestAuthError)
    {db : Database} {route : Route} (hschemes : DistinctSchemes site (candidateSchemes db route))
    {q : HttpRequest} (hkey : q.header "X-Api-Key" = none) :
    authMethodSsiRest site db route q ≠ .error multipleCredentials := by
  intro h
  unfold authMethodSsiRest at h
  dsimp only at h
  cases hextracted : extractAll site.registry q (candidateSchemes db route) with
  | error e =>
    rw [hextracted] at h
    obtain rfl := Except.error.inj h
    rw [hschemes.registry] at hextracted
    exact extractAll_ne_multipleCredentials hextracted
  | ok extracted =>
    rw [hextracted] at h
    have hlength := length_extractAll_le_one hschemes hkey hextracted
    match extracted, hlength with
    | [], _ => simp [bind, Except.bind, multipleCredentials, RestAuthError] at h
    | [credential], _ =>
      -- a verification refuses with another code
      have hrefuse := restAuthVerify_refusesAsInvalid hcore db credential
      change onlyRestAuthError (restAuthVerify site.services db credential) = _ at h
      cases hverify : restAuthVerify site.services db credential with
      | ok result =>
        rw [hverify] at h
        cases h
      | error e =>
        rw [hverify] at h hrefuse
        cases e with
        | restAuthError errorCode description status headers =>
          have hcode := hrefuse _ _ _ _ rfl
          subst hcode
          simp [onlyRestAuthError, multipleCredentials, RestAuthError] at h
        | httpException cls response => cases h
        | userError cls status message => cases h
        | python type => cases h

/-! ## What is claimed -/

/-- The random part of a generated value is URL-safe base64. -/
def Platform.Urlsafe (P : Platform) : Prop :=
  ∀ i, ∀ c ∈ (P.tokenUrlsafe i).toList, c ∈ urlsafeAlphabet

/-- A non-empty base64url text. -/
def IsSegment (s : String) : Prop := s ≠ "" ∧ ∀ c ∈ s.toList, c ∈ urlsafeAlphabet

/-- A compact JWS whose header is the UTF-8 text of a JSON object with a member `alg`. -/
inductive CompactJws : String → Prop
  | mk {header payload signature text : String} {fields : List (List Nat × Doc)}
      (hheader : UrlsafeB64 header.toList (encodeUtf8 text))
      (hobject : JsonText.decode (codePoints text) = some (.obj fields))
      (halg : (Doc.obj fields).hasMember "alg" = true)
      (hpayload : IsSegment payload) (hsignature : IsSegment signature) :
      CompactJws (header ++ "." ++ (payload ++ "." ++ signature))

theorem alphabet_plain : ∀ c ∈ urlsafeAlphabet, isSpace c = false ∧ c ≠ '.' ∧ c ≠ '\n' ∧
    (('A' ≤ c && c ≤ 'Z') || ('a' ≤ c && c ≤ 'z') || ('0' ≤ c && c ≤ '9') || c == '_' ||
      c == '-') = true :=
  List.all_iff_forall_prop.mp (by decide +kernel)

theorem matchesSegment_of_isSegment {s : String} (h : IsSegment s) : matchesSegment s = true := by
  have hlast : s.toList.getLast? ≠ some '\n' := fun he =>
    (alphabet_plain _ (h.2 _ (List.mem_of_getLast? he))).2.2.1 rfl
  have hne : s.toList ≠ [] := fun he => h.1 (String.toList_eq_nil_iff.mp he)
  unfold matchesSegment
  rw [if_neg hlast]
  simp only [Bool.and_eq_true, Bool.not_eq_true', List.isEmpty_eq_false_iff, List.all_eq_true]
  exact ⟨hne, fun c hc => (alphabet_plain c (h.2 c hc)).2.2.2⟩

theorem hasAlg_of_urlsafeB64 {segment text : String} {fields : List (List Nat × Doc)}
    (hsegment : UrlsafeB64 segment.toList (encodeUtf8 text))
    (hobject : JsonText.decode (codePoints text) = some (.obj fields))
    (halg : (Doc.obj fields).hasMember "alg" = true) : hasAlg segment = true := by
  unfold hasAlg b64urlDecode
  rw [urlsafeB64decode_padded hsegment]
  dsimp only
  rw [Doc.loads_encodeUtf8 hobject]
  exact halg

theorem isSegment_header {segment text : String} {fields : List (List Nat × Doc)}
    (hsegment : UrlsafeB64 segment.toList (encodeUtf8 text))
    (hobject : JsonText.decode (codePoints text) = some (.obj fields)) : IsSegment segment := by
  refine ⟨?_, hsegment.mem_alphabet⟩
  rintro rfl
  have hloads := Doc.loads_encodeUtf8 hobject
  generalize encodeUtf8 text = data at hsegment hloads
  rw [String.toList_empty] at hsegment
  cases hsegment
  cases hloads

theorem looksLikeJwt_of_compactJws {token : String} (h : CompactJws token) :
    looksLikeJwt token = true ∧ token ≠ "" ∧ strip token = token := by
  obtain ⟨hheader, hobject, halg, hpayload, hsignature⟩ := h
  rename_i header payload signature text fields
  have hhead := isSegment_header hheader hobject
  have hdot : ∀ {s}, IsSegment s → '.' ∉ s.toList := fun hs hin =>
    (alphabet_plain _ (hs.2 _ hin)).2.1 rfl
  have hsplit : splitOn '.' (header ++ "." ++ (payload ++ "." ++ signature)) =
      [header, payload, signature] := by
    have hsep : "." = String.singleton '.' := by decide
    rw [hsep, splitOn_append_cons (hdot hhead), splitOn_append_cons (hdot hpayload),
      splitOn_eq_singleton (hdot hsignature)]
  refine ⟨?_, ?_, strip_eq_self ?_⟩
  · unfold looksLikeJwt
    simp [hsplit, hhead.1, hpayload.1, hsignature.1, matchesSegment_of_isSegment hhead,
      matchesSegment_of_isSegment hpayload, matchesSegment_of_isSegment hsignature,
      hasAlg_of_urlsafeB64 hheader hobject halg]
  · intro he
    have he := congrArg String.toList he
    rw [String.toList_append, String.toList_append, String.toList_empty] at he
    exact hhead.1 (String.toList_eq_nil_iff.mp
      (List.append_eq_nil_iff.mp (List.append_eq_nil_iff.mp he).1).1)
  · have hspace : ∀ {s}, IsSegment s → ∀ c ∈ s.toList, isSpace c = false := fun hs c hc =>
      (alphabet_plain c (hs.2 c hc)).1
    intro c hc
    simp only [String.toList_append, List.mem_append] at hc
    rcases hc with (hc | hc) | (hc | hc) | hc
    · exact hspace hhead c hc
    · exact (List.mem_singleton.mp hc) ▸ by decide
    · exact hspace hpayload c hc
    · exact (List.mem_singleton.mp hc) ▸ by decide
    · exact hspace hsignature c hc

theorem jwt_extract_of_compactJws {q : HttpRequest} {token : String}
    (hq : q.header "Authorization" = some ("Bearer " ++ token)) (h : CompactJws token) :
    ssiRestAuthJwt.extract q = .ok (some (.jwt token)) := by
  obtain ⟨hshape, hne, hstrip⟩ := looksLikeJwt_of_compactJws h
  have hvalue := authorizationValue_append (by decide) hq
  rw [hstrip] at hvalue
  exact extractBearer_some_iff.mpr ⟨token, hvalue, hne, hshape, rfl⟩

theorem oauth2_extract_of_issued {P : Platform} (hP : P.Urlsafe) {q : HttpRequest} {i : Nat}
    (hq : q.header "Authorization" = some ("Bearer " ++ Oauth.rawValue P i)) :
    ssiRestAuthOauth2.extract q = .ok (some (.oauth2 (Oauth.rawValue P i))) := by
  have hstrip : strip (Oauth.rawValue P i) = Oauth.rawValue P i := by
    refine strip_eq_self fun c hc => ?_
    unfold Oauth.rawValue Platform.rawValue at hc
    rw [String.toList_append] at hc
    rcases List.mem_append.mp hc with hc | hc
    · exact List.all_iff_forall_prop.mp
        (by decide : Oauth.tokenPrefix.toList.all fun c => decide (isSpace c = false)) c hc
    · exact (alphabet_plain c (hP i c hc)).1
  have hvalue := authorizationValue_append (by decide) hq
  rw [hstrip] at hvalue
  exact extractBearer_some_iff.mpr
    ⟨_, hvalue, Oauth.rawValue_ne P i, startsWith_append _ _, rfl⟩

/-- **Header shapes.**  At most one of the basic, jwt and oauth2 providers claims a request, so
that one without `X-Api-Key` is never refused as `multiple_credentials` while no scheme is for
the bearer provider and no two are for one; every issued token is claimed by oauth2, and every
compact JWS with a JSON header by jwt. -/
theorem authorization_shapes {P : Platform} (hP : P.Urlsafe) (q : HttpRequest) :
    shapedProviders.countP (fun p => p.claims q) ≤ 1 ∧
    (∀ (site : Site) (db : Database) (route : Route),
      site.services.core.RaisesNoRestAuthError →
      DistinctSchemes site (candidateSchemes db route) → q.header "X-Api-Key" = none →
        authMethodSsiRest site db route q ≠ .error multipleCredentials) ∧
    (∀ i, q.header "Authorization" = some ("Bearer " ++ Oauth.rawValue P i) →
      ssiRestAuthOauth2.extract q = .ok (some (.oauth2 (Oauth.rawValue P i)))) ∧
    (∀ token, q.header "Authorization" = some ("Bearer " ++ token) → CompactJws token →
      ssiRestAuthJwt.extract q = .ok (some (.jwt token))) :=
  ⟨shapedProviders_disjoint q,
   fun _ _ _ hcore hschemes hkey => not_multipleCredentials hcore hschemes hkey,
   fun _ hq => oauth2_extract_of_issued hP hq, fun _ hq h => jwt_extract_of_compactJws hq h⟩

/-! ## A token of each kind -/

/-- A site with the shipped providers. -/
def shippedSite : Site := { sampleSite with registry := fun model => restAuthenticators.lookup model }

/-- The schemes of the shipped providers but bearer. -/
def headerDatabase : Database :=
  { scopedDatabase with
    schemes := [⟨0, ⟨"basic", "ssi_rest_auth_basic", 10, true⟩⟩,
      ⟨1, ⟨"apikey", "ssi_rest_auth_apikey", 20, true⟩⟩,
      ⟨2, ⟨"jwt", "ssi_rest_auth_jwt", 30, true⟩⟩,
      ⟨3, ⟨"oauth2", "ssi_rest_auth_oauth2", 40, true⟩⟩] }

def bearerRequest (token : String) : HttpRequest :=
  { keyedRequest with headers := [("Authorization", "Bearer " ++ token)] }

theorem sample_urlsafe : Platform.sample.Urlsafe := by
  intro i c hc
  simp only [Platform.sample, String.toList_ofList, List.mem_append] at hc
  rcases hc with hc | hc
  · rw [List.eq_of_mem_replicate hc]
    decide
  · rw [List.eq_of_mem_replicate hc]
    decide

/-- A JWS whose header is the object with `alg` 1. -/
def sampleJws : String := "eyJhbGciOjF9" ++ "." ++ ("e30" ++ "." ++ "c2ln")

theorem sampleJws_compactJws : CompactJws sampleJws := by
  have htext : urlsafeB64encodeUnpadded (encodeUtf8 "\x7b\"alg\":1\x7d") =
      "eyJhbGciOjF9".toList := by decide +kernel
  have hheader := urlsafeB64_encode (encodeUtf8 "\x7b\"alg\":1\x7d")
  rw [htext] at hheader
  have halg : (JsonText.decode (codePoints "\x7b\"alg\":1\x7d")).map (·.hasMember "alg") =
      some true := by
    decide +kernel
  obtain ⟨header, hobject, halg⟩ := Option.map_eq_some_iff.mp halg
  cases header with
  | obj fields =>
    exact .mk hheader hobject halg ⟨by decide, List.all_iff_forall_prop.mp (by decide +kernel)⟩
      ⟨by decide, List.all_iff_forall_prop.mp (by decide +kernel)⟩
  | _ => cases halg

/-- The JWS is for jwt and refused by no ambiguity, an issued token is for oauth2. -/
theorem authorization_shapes_sample :
    authMethodSsiRest shippedSite headerDatabase sampleRoute (bearerRequest sampleJws) ≠
        .error multipleCredentials ∧
      ssiRestAuthJwt.extract (bearerRequest sampleJws) = .ok (some (.jwt sampleJws)) ∧
      ssiRestAuthOauth2.extract (bearerRequest (Oauth.rawValue Platform.sample 0)) =
        .ok (some (.oauth2 (Oauth.rawValue Platform.sample 0))) := by
  have hjws := authorization_shapes sample_urlsafe (bearerRequest sampleJws)
  have hissued := authorization_shapes sample_urlsafe
    (bearerRequest (Oauth.rawValue Platform.sample 0))
  refine ⟨hjws.2.1 shippedSite headerDatabase sampleRoute sampleCore_raisesNoRestAuthError
    ⟨rfl, by decide +kernel, by decide +kernel⟩ (by decide +kernel), ?_, ?_⟩
  · exact hjws.2.2.2 sampleJws (by decide +kernel) sampleJws_compactJws
  · exact hissued.2.2.1 0 (by decide +kernel)

end SsiRest
