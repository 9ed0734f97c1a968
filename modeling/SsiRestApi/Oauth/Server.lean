import SsiRestApi.Lib.Machine
import SsiRestApi.Oauth.Token

/-!
# The OAuth2 endpoints

`/oauth2/authorize`, `/oauth2/token` with its three grants and `/oauth2/revoke`,
each one transaction over the token table with the clients read-only.

* `handle`: every request that reaches the token table.
* `server`: requests one after another, with the clock and the clients changing
  in between.
-/

namespace SsiRest.Oauth

open Py Tx

/-- The body of a token response. -/
structure TokenResponse where
  accessToken : String
  tokenType : String
  expiresIn : Int
  scope : Json
  refreshToken : Option String

inductive Reply where
  /-- `302` with this `Location`. -/
  | redirect (location : String)
  | token (body : TokenResponse)
  /-- `{}`. -/
  | empty

inductive Request where
  /-- In the session of user `uid`. -/
  | authorize (uid : Nat) (kw : Kw)
  | token (authorization : Option String) (kw : Kw)
  | revoke (authorization : Option String) (kw : Kw)
  | actionRevoke (u : User) (ids : List Nat)
  | gcExpiredOauthToken

/-! ## Authorize -/

/-- The value of `code_challenge_method`, when it is one of the two. -/
def challengeMethod (v : Json) : Option ChallengeMethod :=
  if v.isStr "S256" then some .S256
  else if v.isStr "plain" then some .plain
  else none

def authorize (P : Platform) (uid : Nat) (kw : Kw) : OauthM Reply := do
  let clients ← getContext
  let clientId := kw.get "client_id"
  let redirectUri := kw.get "redirect_uri"
  require (clientId.truthy && redirectUri.truthy)
    (RestAuthError "invalid_request" "client_id and redirect_uri are required." 400)
  let client ← ofOption (findClient clients clientId)
    (RestAuthError "invalid_client" "Unknown or inactive client_id." 400)
  require (client.val.hasRedirectUri redirectUri)
    (RestAuthError "invalid_request" "redirect_uri is not registered for this client." 400)
  require ((kw.get "response_type").isStr "code")
    (RestAuthError "unsupported_response_type" "response_type must be 'code'." 400)
  require (client.val.allowsGrant "authorization_code")
    (RestAuthError "unauthorized_client"
      "This client is not allowed to use the authorization_code grant." 400)
  let codeChallenge := kw.get "code_challenge"
  let codeChallengeMethod := (kw.get "code_challenge_method").orElse (.str "S256")
  require codeChallenge.truthy
    (RestAuthError "invalid_request" "code_challenge is required." 400)
  let method ← ofOption (challengeMethod codeChallengeMethod)
    (RestAuthError "invalid_request" "code_challenge_method must be S256 or plain." 400)
  let rawCode ← issue P client (some uid) .code (kw.get "scope") authCodeLifetimeSeconds
    (some codeChallenge) (some method)
  let target ← ofExcept
    (P.appendQuery redirectUri [("code", .str rawCode), ("state", kw.get "state")])
  pure (.redirect target)

/-! ## Token -/

def invalidClientCredentials : Exn :=
  RestAuthError "invalid_client" "Invalid client credentials." 401

/-- `_check_client_secret_if_confidential`. -/
def checkClientSecretIfConfidential (P : Platform) (client : Row Client) (clientSecret : Json) :
    OauthM Unit :=
  if client.val.clientType ≠ .confidential then pure ()
  else do
    let ok ← ofExcept (client.val.checkClientSecret P clientSecret)
    require ok invalidClientCredentials

/-- `_token_response`. -/
def tokenResponse (client : Row Client) (accessToken : String) (scope : Json)
    (refreshToken : Option String) : Reply :=
  .token ⟨accessToken, "Bearer", client.val.accessTokenLifetime, scope.orElse (.str ""),
    refreshToken⟩

/-- `_token_authorization_code`. -/
def tokenAuthorizationCode (P : Platform) (client : Row Client) (kw : Kw) : OauthM Reply := do
  let code := kw.get "code"
  let codeVerifier := kw.get "code_verifier"
  require code.truthy (RestAuthError "invalid_request" "code is required." 400)
  let rows ← getRows
  let now ← getNow
  let found ← ofExcept (lookup P rows now code .code (some client.id))
  let codeRecord ← ofOption found
    (RestAuthError "invalid_grant" "Unknown, expired, or already used authorization code." 400)
  let pkce ← ofExcept (codeRecord.val.checkPkce codeVerifier)
  require pkce
    (RestAuthError "invalid_grant" "code_verifier does not match code_challenge." 400)
  writeRow codeRecord.id .revoked
  let rawAccess ← issue P client codeRecord.val.userId .access (.str codeRecord.val.scope)
    client.val.accessTokenLifetime none none
  let rawRefresh ← issue P client codeRecord.val.userId .refresh (.str codeRecord.val.scope)
    client.val.refreshTokenLifetime none none
  pure (tokenResponse client rawAccess (.str codeRecord.val.scope) (some rawRefresh))

/-- The scope of a client_credentials token: the one asked for, or all of the client's. -/
def clientCredentialsScope (client : Row Client) (kw : Kw) : Json :=
  (kw.get "scope").orElse (.str (join " " client.val.scopeCodes))

/-- `_token_client_credentials`. -/
def tokenClientCredentials (P : Platform) (client : Row Client) (clientSecret : Json) (kw : Kw) :
    OauthM Reply := do
  require (client.val.clientType == .confidential)
    (RestAuthError "unauthorized_client" "client_credentials requires a confidential client." 400)
  let ok ← ofExcept (client.val.checkClientSecret P clientSecret)
  require ok invalidClientCredentials
  let scope := clientCredentialsScope client kw
  let rawAccess ← issue P client none .access scope client.val.accessTokenLifetime none none
  pure (tokenResponse client rawAccess scope none)

/-- `_token_refresh_token`. -/
def tokenRefreshToken (P : Platform) (client : Row Client) (kw : Kw) : OauthM Reply := do
  let rawRefresh := kw.get "refresh_token"
  require rawRefresh.truthy (RestAuthError "invalid_request" "refresh_token is required." 400)
  let rows ← getRows
  let now ← getNow
  let found ← ofExcept (lookup P rows now rawRefresh .refresh (some client.id))
  let refreshRecord ← ofOption found
    (RestAuthError "invalid_grant" "Unknown, expired, or revoked refresh token." 400)
  let rawAccess ← issue P client refreshRecord.val.userId .access
    (.str refreshRecord.val.scope) client.val.accessTokenLifetime none none
  pure (tokenResponse client rawAccess (.str refreshRecord.val.scope) none)

inductive GrantType where
  | authorizationCode
  | clientCredentials
  | refreshToken
  deriving DecidableEq

def GrantType.name : GrantType → String
  | .authorizationCode => "authorization_code"
  | .clientCredentials => "client_credentials"
  | .refreshToken => "refresh_token"

/-- The `grant_type` parameter, when it is one of `_GRANT_TYPES`. -/
def grantType (kw : Kw) : Option GrantType :=
  [.authorizationCode, .clientCredentials, .refreshToken].find? fun g : GrantType =>
    (kw.get "grant_type").isStr g.name

def token (P : Platform) (authorization : Option String) (kw : Kw) : OauthM Reply := do
  let clients ← getContext
  let grant ← ofOption (grantType kw)
    (RestAuthError "unsupported_grant_type" "Unsupported grant_type." 400)
  let credentials := extractClientCredentials authorization kw
  require credentials.1.truthy (RestAuthError "invalid_client" "client_id is required." 401)
  let client ← ofOption (findClient clients credentials.1)
    (RestAuthError "invalid_client" "Unknown or inactive client_id." 401)
  require (client.val.allowsGrant grant.name)
    (RestAuthError "unauthorized_client"
      "This client is not allowed to use this grant_type." 400)
  match grant with
  | .clientCredentials => tokenClientCredentials P client credentials.2 kw
  | .authorizationCode => do
    checkClientSecretIfConfidential P client credentials.2
    tokenAuthorizationCode P client kw
  | .refreshToken => do
    checkClientSecretIfConfidential P client credentials.2
    tokenRefreshToken P client kw

/-! ## Revoke -/

def revoke (P : Platform) (authorization : Option String) (kw : Kw) : OauthM Reply := do
  let clients ← getContext
  let rawToken := kw.get "token"
  require rawToken.truthy (RestAuthError "invalid_request" "token is required." 400)
  let credentials := extractClientCredentials authorization kw
  require credentials.1.truthy (RestAuthError "invalid_client" "client_id is required." 401)
  let client ← ofOption (findClient clients credentials.1)
    (RestAuthError "invalid_client" "Unknown or inactive client_id." 401)
  checkClientSecretIfConfidential P client credentials.2
  let rows ← getRows
  let record ← ofExcept (lookupForRevoke P rows rawToken client.id)
  writeAll .revoked (record.toList.map (·.id))
  pure .empty

/-! ## The server -/

def handle (P : Platform) : Request → OauthM Reply
  | .authorize uid kw => authorize P uid kw
  | .token authorization kw => token P authorization kw
  | .revoke authorization kw => revoke P authorization kw
  | .actionRevoke u ids => do
    actionRevoke u ids
    pure .empty
  | .gcExpiredOauthToken => do
    gcExpiredOauthToken
    pure .empty

abbrev State := Db Clients Token

/-- A step of the deployment. -/
inductive Step where
  | request (q : Request)
  | tick (now : Int)
  /-- Administrators change the clients in any way; the tokens of a deleted client go too. -/
  | editClients (clients : Clients)

/-- What a step is answered: `none` for the steps that are no requests. -/
abbrev Answer := Option (Except Exn Reply)

def step (P : Platform) (s : State) : Step → State × Answer
  | .request q => (((handle P q).transact s).1, some ((handle P q).transact s).2)
  | .tick now => ({ s with now := now }, none)
  | .editClients clients =>
    ({ s with
        ctx := clients
        rows := s.rows.filter fun r => clients.any fun c => c.id == r.val.clientId }, none)

def server (P : Platform) : Machine State Step Answer := ⟨step P⟩

/-- No token was ever issued. -/
def initial (clients : Clients) (now : Int) : State := ⟨clients, [], now, 0, 0⟩

/-! ## A deployment with one client -/

/-- A confidential client with one redirect URI and one scope. -/
def webClient : Row Client where
  id := 1
  val :=
    { active := true
      clientId := "web"
      clientSecretHash := some (Platform.sample.crypt.hash 0 "soc_secret")
      clientType := .confidential
      redirectUriIds := ["https://app.example/callback"]
      grantTypes := "authorization_code, client_credentials, refresh_token"
      scopeIds := [⟨"read", true⟩]
      accessTokenLifetime := 3600
      refreshTokenLifetime := 1209600
      profileId := none }

/-- The authorize call of the client's user 7 for a scope. -/
def authorizeWebRequest (scope : String) : Request :=
  .authorize 7
    [("client_id", .str "web"), ("redirect_uri", .str "https://app.example/callback"),
     ("response_type", .str "code"), ("code_challenge", .str "verifier"),
     ("code_challenge_method", .str "plain"), ("scope", .str scope)]

/-- User 7 authorizes the client for a scope. -/
def authorizeWeb (scope : String) : Step := .request (authorizeWebRequest scope)

/-- A token request of the client. -/
def tokenWebRequest (kw : Kw) : Request :=
  .token none ([("client_id", .str "web"), ("client_secret", .str "soc_secret")] ++ kw)

/-- The client sends a token request. -/
def tokenWeb (kw : Kw) : Step := .request (tokenWebRequest kw)

/-- The parameters with which the client redeems the code made of the `i`-th random text. -/
def redeemWebKw (i : Nat) : Kw :=
  [("grant_type", .str "authorization_code"), ("code_verifier", .str "verifier"),
   ("code", .str (rawValue Platform.sample i))]

/-- The client redeems the code made of the `i`-th random text. -/
def redeemWeb (i : Nat) : Step := tokenWeb (redeemWebKw i)

/-- The parameters with which the client revokes the token made of the `i`-th random text. -/
def revokeWebKw (i : Nat) : Kw :=
  [("client_id", .str "web"), ("client_secret", .str "soc_secret"),
   ("token", .str (rawValue Platform.sample i))]

end SsiRest.Oauth
