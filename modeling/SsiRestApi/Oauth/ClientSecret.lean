import SsiRestApi.Credential
import SsiRestApi.Oauth.Client

/-!
# Client secrets

`ssi_rest_oauth_client` with its access list, and the generation of a client secret.
-/

namespace SsiRest.Oauth

open Py Tx

/-- `write({"client_secret_hash": …})`. -/
inductive ClientWrite where
  | clientSecretHash (hash : String)
  deriving DecidableEq

instance : Update ClientWrite Client where
  update
    | .clientSecretHash hash, c => { c with clientSecretHash := some hash }

abbrev ClientM := Prog Unit Client ClientWrite Exn

def clientModel : Model Client where
  name := "ssi_rest_oauth_client"
  security :=
    { access :=
        [⟨some .user, [.read]⟩,
         ⟨some .system, [.read, .write, .create, .unlink]⟩]
      rules := [] }

def secretPrefix : String := "soc_"

/-- The raw secret made of the `i`-th random text. -/
def rawSecret (P : Platform) (i : Nat) : String := P.rawValue secretPrefix i

/-- Public clients have no secret. -/
def requireConfidential (c : Client) : Except Exn Unit :=
  if c.clientType ≠ .confidential then
    .error (.userError .userError 422
      ("Only confidential clients have a client secret. " ++
        "Public clients authenticate with PKCE instead."))
  else .ok ()

theorem requireConfidential_ok {c : Client} :
    requireConfidential c = .ok () ↔ c.clientType = .confidential := by
  unfold requireConfidential
  by_cases hc : c.clientType = .confidential
  · rw [if_neg (not_not_intro hc)]
    exact iff_of_true rfl hc
  · rw [if_pos hc]
    exact iff_of_false (fun h => by cases h) hc

def clientCredential (P : Platform) : Credential P Client ClientWrite where
  model := clientModel
  check := requireConfidential
  raw := rawSecret P
  vals i := .clientSecretHash (P.crypt.hash i (rawSecret P i))
  hash c := c.clientSecretHash
  title := "Client Secret Generated"
  message := "Copy this client secret now, it will not be shown again:\n\n"
  hash_update _ _ := rfl
  check_update _ _ := rfl

@[simp] theorem clientCredential_model (P : Platform) :
    (clientCredential P).model = clientModel := rfl

@[simp] theorem clientCredential_check (P : Platform) (c : Client) :
    (clientCredential P).check c = requireConfidential c := rfl

/-- `_generate_new_client_secret` on one record. -/
def generateNewClientSecret (P : Platform) (env : Env) (id : Nat) : ClientM String :=
  (clientCredential P).generateNew env id

/-- `action_generate_client_secret`. -/
def actionGenerateClientSecret (P : Platform) (env : Env) (ids : List Nat) :
    ClientM Notification :=
  (clientCredential P).actionGenerate env ids

end SsiRest.Oauth
