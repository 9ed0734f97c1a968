import SsiRestApi.Extraction
import SsiRestApi.Oauth.Owned
import SsiRestApi.Routes

/-!
# A bare session cookie

The routes of the repository as one system: which requests change what a user owns
without a credential.

    a request without credentials changes nothing but tokens, and those of a user ↔
      it is one of the OAuth2 endpoints' that changes them        (cookie_inert_iff)
-/

namespace SsiRest

open Py Tx

/-- The database, with the counters of the token table and every other table. -/
structure World (σ : Type) where
  db : Database
  drawn : Nat
  nextId : Nat
  other : σ

structure Server (σ : Type) where
  site : Site
  /-- What the endpoints behind `auth="ssi_rest"` do. -/
  endpoints : String → Call → World σ → World σ

section

variable {σ : Type}

/-- The token table and what its requests read. -/
def World.oauth (w : World σ) : Oauth.State :=
  ⟨w.db.clients, w.db.tokens, w.db.now, w.drawn, w.nextId⟩

/-- The world with the token table of a later state. -/
def World.withTokens (w : World σ) (s : Oauth.State) : World σ :=
  ⟨{ w.db with tokens := s.rows }, s.drawn, s.nextId, w.other⟩

/-- The request an OAuth2 endpoint makes of the token table. -/
def oauthRequest (endpoint : String) (q : HttpRequest) (call : Call) : Option Oauth.Request :=
  if endpoint = Routes.authorize.endpoint then some (.authorize call.uid call.params)
  else if endpoint = Routes.token.endpoint then
    some (.token (q.header "Authorization") call.params)
  else if endpoint = Routes.revoke.endpoint then
    some (.revoke (q.header "Authorization") call.params)
  else none

/-- The call of an endpoint; `ping` only answers. -/
def Server.call (S : Server σ) (endpoint : String) (q : HttpRequest) (call : Call)
    (w : World σ) : World σ :=
  match oauthRequest endpoint q call with
  | some request =>
    w.withTokens ((Oauth.handle S.site.services.platform request).transact w.oauth).1
  | none => if endpoint = Routes.ping.endpoint then w else S.endpoints endpoint call w

/-- A request that matched a pattern of a route. -/
def Server.respond (S : Server σ) (r : RestRoute) (rule : String) (pathArgs : Kw)
    (q : HttpRequest) (w : World σ) : World σ :=
  if r.serves q.method then
    match serve S.site w.db (r.route rule) pathArgs q with
    | .error _ => w
    | .ok call =>
      match bindEndpoint call.params with
      | .error _ => w
      | .ok () => S.call r.endpoint q call w
  else w

/-! ## What the request may change -/

/-- No `Authorization`, no `X-Api-Key` and no client secret, wherever it might be sent. -/
structure Bare (q : HttpRequest) (pathArgs : Kw) : Prop where
  authorization : q.header "Authorization" = none
  apiKey : q.header "X-Api-Key" = none
  clientSecret : ∀ params, mergeParams q pathArgs = .ok params →
    params.lookup "client_secret" = none

/-- Only tokens changed, and none that the user owns or now owns. -/
structure Inert (uid : Nat) (w w' : World σ) : Prop where
  tokens : Oauth.owned uid w'.db.tokens = Oauth.owned uid w.db.tokens
  tables : { w'.db with tokens := w.db.tokens } = w.db
  other : w'.other = w.other

/-- The request reaches an OAuth2 endpoint and changes the tokens of the user there. -/
def ChangesTokens (S : Server σ) (r : RestRoute) (rule : String) (pathArgs : Kw)
    (q : HttpRequest) (w : World σ) (uid : Nat) : Prop :=
  r.serves q.method = true ∧ ∃ call request,
    serve S.site w.db (r.route rule) pathArgs q = .ok call ∧ bindEndpoint call.params = .ok () ∧
      oauthRequest r.endpoint q call = some request ∧
      Oauth.Changes S.site.services.platform w.oauth uid request

theorem Inert.refl (uid : Nat) (w : World σ) : Inert uid w w := ⟨rfl, rfl, rfl⟩

/-! ## Behind `auth="ssi_rest"` -/

/-- No shipped provider finds a credential in a bare request. -/
theorem Bare.not_claims {q : HttpRequest} {pathArgs : Kw} (hq : Bare q pathArgs) {model : String}
    {p : Provider} (hmem : (model, p) ∈ restAuthenticators) : p.claims q = false := by
  have hvalue : ∀ pre, authorizationValue q pre = none := by
    intro pre
    unfold authorizationValue
    rw [hq.authorization]
  simp only [restAuthenticators, List.mem_cons, Prod.mk.injEq, List.not_mem_nil, or_false] at hmem
  rcases hmem with ⟨-, rfl⟩ | ⟨-, rfl⟩ | ⟨-, rfl⟩ | ⟨-, rfl⟩ | ⟨-, rfl⟩
  · simp [Provider.claims, ssiRestAuthBasic, hvalue]
  · simp [Provider.claims, ssiRestAuthBearer, extractBearer, hvalue]
  · simp [Provider.claims, ssiRestAuthApikey, hq.apiKey]
  · simp [Provider.claims, ssiRestAuthJwt, extractBearer, hvalue]
  · simp [Provider.claims, ssiRestAuthOauth2, extractBearer, hvalue]

/-- A bare request authenticates as nobody. -/
theorem Bare.serve_ne_ok {q : HttpRequest} {pathArgs : Kw} (hq : Bare q pathArgs) {site : Site}
    (hsite : site.registry = fun model => restAuthenticators.lookup model) {db : Database}
    {route : Route} (hroute : route.auth = .ssiRest) {call : Call} :
    serve site db route pathArgs q ≠ .ok call := by
  intro h
  obtain ⟨identity, _, _, _, hid, -⟩ := serve_ok_iff.mp h
  unfold identify at hid
  rw [hroute] at hid
  cases hauth : authenticate site db route q with
  | error e =>
    rw [hauth] at hid
    cases hid
  | ok result =>
    obtain ⟨c, hextract, -⟩ := authenticate_ok_iff.mp hauth
    have hlength := length_extractAll hextract
    have hzero : (candidateSchemes db route).countP
        (fun s => (site.registry s.2).any fun p => p.claims q) = 0 := by
      rw [List.countP_eq_zero]
      intro s _ hclaims
      obtain ⟨p, hp, hp'⟩ := (Option.any_eq_true _ _).mp hclaims
      rw [hsite] at hp
      rw [hq.not_claims (mem_of_lookup hp)] at hp'
      cases hp'
    rw [hzero] at hlength
    cases hlength

theorem auth_of_mem_ssiRestRoutes : ∀ r ∈ Routes.ssiRestRoutes, r.auth = .ssiRest := by
  decide

/-! ## The OAuth2 endpoints -/

theorem inert_withTokens_iff {uid : Nat} {w : World σ} {s : Oauth.State} :
    Inert uid w (w.withTokens s) ↔ Oauth.owned uid s.rows = Oauth.owned uid w.db.tokens :=
  ⟨fun h => h.tokens, fun h => ⟨h, rfl, rfl⟩⟩

/-- A request of an endpoint changes the tokens of a user, or leaves everything of theirs. -/
theorem inert_call_iff (S : Server σ) {endpoint : String} {q : HttpRequest} {call : Call}
    {w : World σ} (hnum : Numbered w.nextId w.db.tokens) {request : Oauth.Request}
    (hrequest : oauthRequest endpoint q call = some request) (uid : Nat) :
    Inert uid w (S.call endpoint q call w) ↔
      ¬ Oauth.Changes S.site.services.platform w.oauth uid request := by
  unfold Server.call
  rw [hrequest]
  dsimp only
  rw [inert_withTokens_iff]
  unfold oauthRequest at hrequest
  split at hrequest
  · cases hrequest
    exact Oauth.owned_authorize_iff
  · split at hrequest
    · cases hrequest
      exact Oauth.owned_token_iff hnum
    · split at hrequest
      · cases hrequest
        exact Oauth.owned_revoke_iff hnum
      · cases hrequest

theorem call_ping (S : Server σ) (q : HttpRequest) (call : Call) (w : World σ) :
    S.call Routes.ping.endpoint q call w = w := rfl

/-- A route of the repository is behind `auth="ssi_rest"`, or only answers, or is one of the
OAuth2 endpoints. -/
theorem restRoutes_cases {r : RestRoute} (hr : r ∈ Routes.restRoutes) :
    r.auth = .ssiRest ∨ r = Routes.ping ∨
      ∀ q call, (oauthRequest r.endpoint q call).isSome = true := by
  rcases List.mem_append.mp hr with hr | hr
  · simp only [List.mem_cons, List.not_mem_nil, or_false] at hr
    rcases hr with rfl | rfl | rfl | rfl
    · exact Or.inr (Or.inl rfl)
    · exact Or.inr (Or.inr fun _ _ => rfl)
    · exact Or.inr (Or.inr fun _ _ => rfl)
    · exact Or.inr (Or.inr fun _ _ => rfl)
  · exact Or.inl (auth_of_mem_ssiRestRoutes r hr)

/-- **Session cookies.**  A request without credentials leaves what a user owns alone, the user
of its session among them, exactly when it does not change their tokens at an OAuth2 endpoint:
by authorizing a client in their session, or by redeeming, using or revoking one of their
tokens. -/
theorem cookie_inert_iff (S : Server σ)
    (hsite : S.site.registry = fun model => restAuthenticators.lookup model) {r : RestRoute}
    (hr : r ∈ Routes.restRoutes) (rule : String) {pathArgs : Kw} {q : HttpRequest}
    (hq : Bare q pathArgs) {w : World σ} (hnum : Numbered w.nextId w.db.tokens) (uid : Nat) :
    Inert uid w (S.respond r rule pathArgs q w) ↔ ¬ ChangesTokens S r rule pathArgs q w uid := by
  unfold Server.respond ChangesTokens
  by_cases hserves : r.serves q.method = true
  · rw [if_pos hserves]
    cases hserve : serve S.site w.db (r.route rule) pathArgs q with
    | error e =>
      refine iff_of_true (Inert.refl uid w) ?_
      rintro ⟨-, call, request, hcall, -⟩
      cases hcall
    | ok call =>
      dsimp only
      cases hbind : bindEndpoint call.params with
      | error e =>
        refine iff_of_true (Inert.refl uid w) ?_
        rintro ⟨-, call', request, hcall, hbind', -⟩
        cases hcall
        rw [hbind] at hbind'
        cases hbind'
      | ok u =>
      dsimp only
      rcases restRoutes_cases hr with hauth | rfl | hoauth
      · exact absurd hserve (hq.serve_ne_ok hsite hauth)
      · rw [call_ping]
        refine iff_of_true (Inert.refl uid w) ?_
        rintro ⟨-, call', request, -, -, hrequest, -⟩
        cases hrequest
      · obtain ⟨request, hrequest⟩ := Option.isSome_iff_exists.mp (hoauth q call)
        rw [inert_call_iff S hnum hrequest]
        refine not_congr ⟨fun h => ⟨hserves, call, request, rfl, hbind, hrequest, h⟩, ?_⟩
        rintro ⟨-, call', request', hcall, -, hrequest', h⟩
        cases hcall
        rw [hrequest] at hrequest'
        cases hrequest'
        exact h
  · rw [if_neg hserves]
    exact iff_of_true (Inert.refl uid w) fun h => hserves h.1

/-- Without a code, a refresh token or a token among its parameters, only an authorize call
changes tokens. -/
theorem not_changes_without_token {P : Platform} {s : Oauth.State} {uid : Nat}
    {authorization : Option String} {kw : Kw}
    (hcode : kw.lookup "code" = none) (hrefresh : kw.lookup "refresh_token" = none)
    (htoken : kw.lookup "token" = none) :
    ¬ Oauth.Changes P s uid (.token authorization kw) ∧
      ¬ Oauth.Changes P s uid (.revoke authorization kw) := by
  have hnull : ∀ key, kw.lookup key = none → (kw.get key).truthy = false := by
    intro key hkey
    unfold Kw.get
    rw [hkey]
    rfl
  have hfound : ∀ {key : String} {cond : Oauth.Token → Bool} {record : Row Oauth.Token},
      kw.lookup key = none →
      Oauth.findByRaw P s.rows (kw.get key) cond ≠ .ok (some record) := by
    intro key cond record hkey h
    have htruthy := Oauth.truthy_of_findByRaw h
    rw [hnull key hkey] at htruthy
    cases htruthy
  constructor
  · intro h
    cases h with
    | redeem h _ => exact hfound hcode h.found
    | refresh h _ => exact hfound hrefresh h.found
  · intro h
    cases h with
    | revoke h _ _ => exact hfound htoken h.found

end

/-! ## A link to the authorize endpoint -/

/-- A server with one client, whose session is user 7's. -/
def cookieServer : Server Unit := ⟨shippedSite, fun _ _ w => w⟩

def cookieWorld : World Unit := ⟨{ headerDatabase with clients := [Oauth.webClient] }, 3, 1, ()⟩

/-- The browser follows a link that an attacker made. -/
def authorizeLink : HttpRequest where
  remoteAddr := some "127.0.0.1"
  path := "/api/v1/oauth2/authorize"
  method := "GET"
  headers := [("Cookie", "session_id=7")]
  args := [("client_id", "web"), ("redirect_uri", "https://app.example/callback"),
    ("response_type", "code"), ("code_challenge", "verifier"), ("code_challenge_method", "plain")]
  mimetype := ""
  formParams := []
  contentLength := 0
  jsonData := .ok .null

theorem authorizeLink_bare : Bare authorizeLink [] where
  authorization := by decide
  apiKey := by decide
  clientSecret params h := by
    cases h
    decide

/-- `ping` answers the same request and changes nothing. -/
theorem cookie_inert_ping :
    Inert 7 cookieWorld
      (cookieServer.respond Routes.ping "/api/v1/ping" [] authorizeLink cookieWorld) := by
  have hnum : Numbered cookieWorld.nextId cookieWorld.db.tokens := by
    refine ⟨List.pairwise_singleton _ _, fun r hr => ?_⟩
    rw [List.mem_singleton.mp hr]
    decide
  refine (cookie_inert_iff cookieServer rfl List.mem_cons_self "/api/v1/ping" authorizeLink_bare
    hnum 7).mpr ?_
  rintro ⟨-, call, request, -, -, hrequest, -⟩
  cases hrequest

/-- The link is bare, and issues a code for the user of the session. -/
theorem not_cookie_inert :
    Bare authorizeLink [] ∧ cookieServer.site.coreAuth "user" cookieWorld.db authorizeLink = .ok 7 ∧
      ¬ Inert 7 cookieWorld
        (cookieServer.respond Routes.authorize "/api/v1/oauth2/authorize" [] authorizeLink
          cookieWorld) := by
  refine ⟨authorizeLink_bare, rfl, fun h => ?_⟩
  have htokens := congrArg List.length h.tokens
  exact absurd htokens (by decide)

end SsiRest
