import SsiRestApi.Lib.Bytes
import SsiRestApi.Lib.Tx
import SsiRestApi.Platform

/-!
# OAuth2 clients

`ssi_rest_oauth_client` and the credentials a token or revoke request presents
for one.
-/

namespace SsiRest.Oauth

open Py Tx

inductive ClientType where
  | confidential
  | publicClient
  deriving DecidableEq

/-- `ssi_rest_oauth_scope`. -/
structure Scope where
  code : String
  active : Bool
  deriving DecidableEq

/-- `ssi_rest_oauth_client`. -/
structure Client where
  active : Bool
  clientId : String
  clientSecretHash : Option String
  clientType : ClientType
  redirectUriIds : List String
  grantTypes : String
  scopeIds : List Scope
  accessTokenLifetime : Int
  refreshTokenLifetime : Int
  profileId : Option Nat
  deriving DecidableEq

abbrev Clients := List (Row Client)

/-- `_GRANT_TYPES`. -/
def grantTypes : List String := ["authorization_code", "client_credentials", "refresh_token"]

namespace Client

/-- `client.scope_ids.mapped("code")`: archived scopes are not read. -/
def scopeCodes (c : Client) : List String := (c.scopeIds.filter (·.active)).map (·.code)

/-- `_check_client_secret`. -/
def checkClientSecret (P : Platform) (c : Client) (rawSecret : Json) : Except Exn Bool :=
  match c.clientSecretHash with
  | none => .ok false
  | some hash =>
    if c.clientType ≠ .confidential || hash = "" || !rawSecret.truthy then .ok false
    else match rawSecret with
      | .str s =>
        match P.crypt.verify s hash with
        | some b => .ok b
        | none => .error hashError
      | _ => .error (.python "TypeError")

/-- `_allows_grant`. -/
def allowsGrant (c : Client) (grantType : String) : Bool :=
  Oauth.grantTypes.contains grantType &&
    ((splitOn ',' c.grantTypes).map strip).contains grantType

/-- `_has_redirect_uri`. -/
def hasRedirectUri (c : Client) (redirectUri : Json) : Bool :=
  c.redirectUriIds.any fun url => redirectUri.isStr url

/-- The secret that verifies is text, and the client keeps a hash of it. -/
theorem checkClientSecret_true {P : Platform} {c : Client} {rawSecret : Json}
    (h : c.checkClientSecret P rawSecret = .ok true) :
    c.clientType = .confidential ∧ ∃ s hash, rawSecret = .str s ∧
      c.clientSecretHash = some hash ∧ P.crypt.verify s hash = some true := by
  unfold checkClientSecret at h
  split at h
  · cases h
  · next hash hh =>
    split at h
    · cases h
    · next hc =>
      simp only [Bool.or_eq_true, decide_eq_true_eq, not_or, Decidable.not_not] at hc
      split at h
      · next s =>
        split at h
        · next b hb =>
          cases h
          exact ⟨hc.1.1, s, hash, rfl, hh, hb⟩
        · cases h
      · cases h

theorem exists_of_hasRedirectUri {c : Client} {redirectUri : Json}
    (h : c.hasRedirectUri redirectUri = true) :
    ∃ url ∈ c.redirectUriIds, redirectUri = .str url := by
  obtain ⟨url, hurl, he⟩ := List.any_eq_true.mp h
  exact ⟨url, hurl, Json.eq_str_of_isStr he⟩

end Client

/-! ## Client credentials -/

/-- `search([("client_id", "=", client_id), ("active", "=", True)], limit=1)`. -/
def findClient (clients : Clients) (clientId : Json) : Option (Row Client) :=
  clients.find? fun c => clientId.isStr c.val.clientId && c.val.active

theorem findClient_some {clients : Clients} {clientId : Json} {client : Row Client}
    (h : findClient clients clientId = some client) :
    client ∈ clients ∧ clientId = .str client.val.clientId ∧ client.val.active = true := by
  have hc := List.find?_some h
  simp only [Bool.and_eq_true] at hc
  exact ⟨List.mem_of_find?_eq_some h, Json.eq_str_of_isStr hc.1, hc.2⟩

/-- The text of a Basic header, `""` where it cannot be decoded. -/
def decodeBasic (encoded : String) : String :=
  match b64decode encoded with
  | .error _ => ""
  | .ok bytes => (decodeUtf8 bytes).getD ""

/-- `_extract_client_credentials(kw)`: client id and secret. -/
def extractClientCredentials (authorization : Option String) (kw : Kw) : Json × Json :=
  let fallback := (kw.get "client_id", kw.get "client_secret")
  match authorization with
  | none => fallback
  | some header =>
    if startsWith header "Basic " then
      let (clientId, clientSecret) := partition ':' (decodeBasic (dropChars header 6))
      if clientId ≠ "" then (.str clientId, .str clientSecret) else fallback
    else fallback

end SsiRest.Oauth
