import SsiRestApi.ApiKey.Lifecycle
import SsiRestApi.Oauth.ClientSecret

/-!
# Minting needs no write permission

The buttons that generate an API key or a client secret are public methods, which
the generic call route runs for any caller, and they work as the superuser.  So
whether only permitted callers mint is decided by the callers' rights alone, never
by the code.

    generate_permitted_iff: a call mints only for permitted records exactly when it
    raises or the caller may write every record of it
-/

namespace SsiRest

open Py Tx

/-- `_authenticate` resolves the raw key to the record. -/
def ApiKey.Resolves (P : Platform) (db : Db Unit ApiKey.Key) (raw : String)
    (r : Row ApiKey.Key) : Prop :=
  ApiKey.authenticate P db.rows db.now raw = .ok (some r)

/-- `_check_client_secret` accepts the raw secret for the client. -/
def Oauth.Accepts (P : Platform) (_ : Db Unit Oauth.Client) (raw : String)
    (r : Row Oauth.Client) : Prop :=
  r.val.checkClientSecret P (.str raw) = .ok true

/-- **Minting.**  A call of `action_generate_key` or `action_generate_client_secret` changes
or reveals the credentials of permitted records only, exactly when the recordset is empty, some
record does not exist or is a public client, or the caller passes the write access list and the
write rules on every record. -/
theorem generate_permitted_iff {P : Platform} (hP : P.Exact) (u : User) (ids : List Nat) :
    (∀ db : Db Unit ApiKey.Key, (ApiKey.keyCredential P).WellFormed db →
      ((ApiKey.keyCredential P).MintsOnlyPermitted (ApiKey.Resolves P) db u ids ↔
        ids = [] ∨ (∃ id ∈ ids, ∀ r ∈ db.rows, r.id ≠ id) ∨
          ∀ r ∈ db.rows, r.id ∈ ids →
            ApiKey.keyModel.security.permits u .write r.val = true)) ∧
    ∀ db : Db Unit Oauth.Client, (Oauth.clientCredential P).WellFormed db →
      ((Oauth.clientCredential P).MintsOnlyPermitted (Oauth.Accepts P) db u ids ↔
        ids = [] ∨
          (∃ id ∈ ids, ∀ r ∈ db.rows, r.id = id → r.val.clientType ≠ .confidential) ∨
          ∀ r ∈ db.rows, r.id ∈ ids →
            Oauth.clientModel.security.permits u .write r.val = true) := by
  refine ⟨fun db hdb => ?_, fun db hdb => ?_⟩
  · have hauth : ∀ db raw r, ApiKey.Resolves P db raw r →
        ∃ h, (ApiKey.keyCredential P).hash r.val = some h ∧ P.crypt.verify raw h = some true := by
      intro db raw r hr
      obtain ⟨-, -, -, h, hh, -, hv⟩ := ApiKey.authenticate_some hr
      exact ⟨h, hh, hv⟩
    rw [Credential.mintsOnlyPermitted_iff hP hdb hauth, Credential.not_ready_iff hdb.numbered]
    simp
  · have hauth : ∀ db raw r, Oauth.Accepts P db raw r →
        ∃ h, (Oauth.clientCredential P).hash r.val = some h ∧ P.crypt.verify raw h = some true := by
      intro db raw r hr
      obtain ⟨-, s, h, hs, hh, hv⟩ := Oauth.Client.checkClientSecret_true hr
      cases hs
      exact ⟨h, hh, hv⟩
    rw [Credential.mintsOnlyPermitted_iff hP hdb hauth, Credential.not_ready_iff hdb.numbered]
    simp only [Oauth.clientCredential_model, Oauth.clientCredential_check, ne_eq,
      Oauth.requireConfidential_ok]

/-! ## Tables -/

/-- Every key table that operations reach is well formed. -/
theorem ApiKey.Tracked.wellFormed {P : Platform} (hP : P.Exact) {db : Db Unit ApiKey.Key}
    {generated : List ApiKey.Generation}
    (h : ApiKey.Tracked P db.drawn db.nextId db.rows generated) :
    (ApiKey.keyCredential P).WellFormed db where
  numbered := h.numbered
  fresh r hr hash hhash i hi hv := by
    have hold := h.holds r hr
    have hhash : r.val.keyHash = some hash := hhash
    cases hl : ApiKey.latest generated r.id with
    | none =>
      rw [hl] at hold
      rw [show r.val.keyHash = none from hold] at hhash
      cases hhash
    | some g =>
      rw [hl] at hold
      obtain ⟨j, hraw, -, hgen⟩ := hold
      obtain ⟨-, k, hk, hrawk⟩ := h.known g (ApiKey.latest_some hl).1
      rw [hgen, Option.some.injEq] at hhash
      rw [← hhash, hP.crypt.verify_hash, Option.some.injEq, decide_eq_true_iff] at hv
      have hik : i = k := ApiKey.rawKey_inj hP (hv.trans hrawk)
      omega

/-- The employee has generated a key. -/
def generatedKey : Db Unit ApiKey.Key :=
  ((ApiKey.keys Platform.sample).exec (ApiKey.initial 0)
    [.request (.create ⟨employee, false⟩ { profileId := some 1 }),
     .request (.generateNewKey ⟨employee, false⟩ 0)]).db

/-- A confidential client without a secret. -/
def newClient : Row Oauth.Client where
  id := 1
  val :=
    { active := true
      clientId := "app"
      clientSecretHash := none
      clientType := .confidential
      redirectUriIds := []
      grantTypes := "client_credentials"
      scopeIds := []
      accessTokenLifetime := 3600
      refreshTokenLifetime := 1209600
      profileId := none }

def registeredClient : Db Unit Oauth.Client := ⟨(), [newClient], 0, 0, 2⟩

theorem wellFormed_generatedKey :
    (ApiKey.keyCredential Platform.sample).WellFormed generatedKey :=
  (ApiKey.tracked_run Platform.sample_exact 0 _ (by decide)).wellFormed Platform.sample_exact

theorem wellFormed_registeredClient :
    (Oauth.clientCredential Platform.sample).WellFormed registeredClient where
  numbered := ⟨List.pairwise_singleton _ _, by decide⟩
  fresh r hr hash hhash := by
    cases List.mem_singleton.mp hr
    cases hhash

/-- The owner of a key, generating it again, mints for a permitted record only; so does a
call on a client that does not exist. -/
theorem generate_permitted_sample :
    (ApiKey.keyCredential Platform.sample).MintsOnlyPermitted (ApiKey.Resolves Platform.sample)
        generatedKey employee [0] ∧
      (Oauth.clientCredential Platform.sample).MintsOnlyPermitted
        (Oauth.Accepts Platform.sample) registeredClient employee [5] :=
  ⟨((generate_permitted_iff Platform.sample_exact employee [0]).1 generatedKey
      wellFormed_generatedKey).mpr (by decide),
    ((generate_permitted_iff Platform.sample_exact employee [5]).2 registeredClient
      wellFormed_registeredClient).mpr (by decide)⟩

/-- A colleague replaces the hash of the employee's key, and any employee that of a client. -/
theorem not_mintsOnlyPermitted :
    ¬ (ApiKey.keyCredential Platform.sample).MintsOnlyPermitted
        (ApiKey.Resolves Platform.sample) generatedKey colleague [0] ∧
      ¬ (Oauth.clientCredential Platform.sample).MintsOnlyPermitted
        (Oauth.Accepts Platform.sample) registeredClient employee [1] := by
  refine ⟨fun h => ?_, fun h => ?_⟩
  · have := h ⟨0, update (ApiKey.generatedVals Platform.sample 0) (ApiKey.blank 7 1)⟩ (by decide)
      ⟨0, update (ApiKey.generatedVals Platform.sample 1) (ApiKey.blank 7 1)⟩ (by decide) rfl
      (Or.inl (by decide))
    exact absurd this (by decide)
  · have := h newClient (by decide)
      ⟨1, update (Oauth.ClientWrite.clientSecretHash
        (Platform.sample.crypt.hash 0 (Oauth.rawSecret Platform.sample 0))) newClient.val⟩
      (by decide) rfl (Or.inl (by decide))
    exact absurd this (by decide)

end SsiRest
