import SsiRestApi.Auth
import SsiRestApi.Oauth.Token

/-!
# The oauth2 provider

`ssi_rest_auth_oauth2`: an access token of the token table as the credential of
a request.
-/

namespace SsiRest.Oauth

open Py Tx

/-- `record.client_id.profile_id`. -/
def clientProfile (clients : Clients) (clientId : Nat) : Option Nat :=
  (clients.find? fun c => c.id == clientId).bind fun c => c.val.profileId

/-- The result for a token row: its user, or the public user when it has none. -/
def authResult (publicUser : Nat) (clients : Clients) (t : Token) : RestAuthResult where
  uid := t.userId.getD publicUser
  scheme := "oauth2"
  profileIds := (clientProfile clients t.clientId).toList
  scopes := words t.scope
  expiresAt := some t.expirationDate

/-- `_rest_auth_verify(credential)`. -/
def restAuthVerify (P : Platform) (publicUser : Nat) (clients : Clients)
    (rows : List (Row Token)) (now : Int) (credential : String) : Except Exn RestAuthResult :=
  match lookup P rows now (.str credential) .access none with
  | .error e => .error e
  | .ok none => .error (invalidCredential "Invalid, expired, or revoked access token.")
  | .ok (some record) => .ok (authResult publicUser clients record.val)

theorem restAuthVerify_ok {P : Platform} {publicUser : Nat} {clients : Clients}
    {rows : List (Row Token)} {now : Int} {credential : String} {result : RestAuthResult} :
    restAuthVerify P publicUser clients rows now credential = .ok result ↔
      ∃ record, lookup P rows now (.str credential) .access none = .ok (some record) ∧
        result = authResult publicUser clients record.val := by
  unfold restAuthVerify
  split
  · next e he => simp [he]
  · next he => simp [he]
  · next record he => simp [he, eq_comm]

end SsiRest.Oauth
