import SsiRestApi.Lib.Raises
import SsiRestApi.Oauth.Owned
import SsiRestApi.Oauth.Pkce

/-!
# Malformed parameters

Which parameters the token and revoke endpoints answer with a protocol error or a
reply, and which they let escape as another exception.

    every exception is a protocol error
      ↔ no secret is no text or refused by the hash, no code or token is no text,
        no verifier or challenge compared is not ASCII     (protocolErrorsOnly_iff)
-/

namespace SsiRest.Oauth

open Py Tx

/-- A `RestAuthError` with a `4xx` status. -/
def ProtocolError : Exn → Prop
  | .restAuthError _ _ status _ => 400 ≤ status ∧ status < 500
  | _ => False

/-- The token and revoke handlers succeed or raise a protocol error. -/
def ProtocolErrorsOnly (P : Platform) (s : State) (authorization : Option String) (kw : Kw) :
    Prop :=
  (token P authorization kw).RaisesOnly ProtocolError s ∧
    (revoke P authorization kw).RaisesOnly ProtocolError s

/-- The client the parameters name. -/
structure Presents (s : State) (authorization : Option String) (kw : Kw) (client : Row Client) :
    Prop where
  truthy : (extractClientCredentials authorization kw).1.truthy = true
  found : findClient s.ctx (extractClientCredentials authorization kw).1 = some client

/-- A secret given for a client that keeps a hash is text that can be verified against it. -/
def SecretChecks (P : Platform) (c : Client) (clientSecret : Json) : Prop :=
  c.clientType = .confidential → ∀ hash, c.clientSecretHash = some hash → hash ≠ "" →
    clientSecret.truthy = true →
    ∃ secret, clientSecret = .str secret ∧ P.crypt.verify secret hash ≠ none

/-- The rows a raw value is compared with. -/
def sharingIndex (rows : List (Row Token)) (cond : Token → Bool) (raw : String) :
    List (Row Token) :=
  rows.filter fun r => r.val.tokenIndex == slice raw tokenIndexSize && cond r.val

/-- A raw value that is given is a list, which no row has, or text that no row refuses. -/
def Searchable (P : Platform) (rows : List (Row Token)) (cond : Token → Bool) (raw : Json) :
    Prop :=
  raw.truthy = true → (∃ items, raw = .arr items) ∨ ∃ text, raw = .str text ∧
    ¬ P.crypt.Refuses (fun r : Row Token => some r.val.tokenHash) text
      (sharingIndex rows cond text)

/-- The condition of `_lookup`. -/
def isLive (now : Int) (tokenType : TokenType) (client : Option Nat) (t : Token) : Bool :=
  t.tokenType == tokenType && !t.revoked && decide (t.expirationDate > now) &&
    client.all fun id => t.clientId == id

/-- The condition of `_lookup_for_revoke`. -/
def isRevocable (client : Nat) (t : Token) : Bool :=
  t.tokenType != .code && t.clientId == client

/-- What the token endpoint comes to use can be used. -/
structure TokenWellFormed (P : Platform) (s : State) (authorization : Option String) (kw : Kw) :
    Prop where
  secret : ∀ grant client, grantType kw = some grant → Presents s authorization kw client →
    client.val.allowsGrant grant.name = true →
    SecretChecks P client.val (extractClientCredentials authorization kw).2
  code : ∀ client, grantType kw = some .authorizationCode → From P s authorization kw client →
    client.val.allowsGrant "authorization_code" = true →
    Searchable P s.rows (isLive s.now .code (some client.id)) (kw.get "code") ∧
      ∀ code, lookup P s.rows s.now (kw.get "code") .code (some client.id) = .ok (some code) →
        code.val.Comparable (kw.get "code_verifier")
  refreshToken : ∀ client, grantType kw = some .refreshToken → From P s authorization kw client →
    client.val.allowsGrant "refresh_token" = true →
    Searchable P s.rows (isLive s.now .refresh (some client.id)) (kw.get "refresh_token")

/-- What the revoke endpoint comes to use can be used. -/
structure RevokeWellFormed (P : Platform) (s : State) (authorization : Option String) (kw : Kw) :
    Prop where
  secret : ∀ client, (kw.get "token").truthy = true → Presents s authorization kw client →
    SecretChecks P client.val (extractClientCredentials authorization kw).2
  token : ∀ client, From P s authorization kw client →
    Searchable P s.rows (isRevocable client.id) (kw.get "token")

variable {P : Platform} {s : State} {authorization : Option String} {kw : Kw}

theorem protocolError_restAuthError (errorCode description : String) {status : Int}
    (h : 400 ≤ status ∧ status < 500) : ProtocolError (RestAuthError errorCode description status) :=
  h

/-! ## The primitives -/

theorem not_protocolError_of_checkClientSecret {c : Client} {clientSecret : Json} {e : Exn}
    (h : c.checkClientSecret P clientSecret = .error e) : ¬ ProtocolError e := by
  unfold Client.checkClientSecret at h
  split at h
  · cases h
  · split at h
    · cases h
    · split at h
      · split at h
        · cases h
        · cases h
          exact id
      · cases h
        exact id

theorem checkClientSecret_returns_iff {c : Client} {clientSecret : Json} :
    (∃ b, c.checkClientSecret P clientSecret = .ok b) ↔ SecretChecks P c clientSecret := by
  unfold Client.checkClientSecret SecretChecks
  cases hhash : c.clientSecretHash with
  | none => simp
  | some hash =>
    dsimp only
    by_cases hskip : (c.clientType ≠ .confidential || hash = "" || !clientSecret.truthy) = true
    · rw [if_pos hskip]
      refine iff_of_true ⟨false, rfl⟩ fun htype hash' he hne htruthy => ?_
      cases he
      simp [htype, hne, htruthy] at hskip
    · rw [if_neg hskip]
      simp only [Bool.or_eq_true, decide_eq_true_eq, not_or, Decidable.not_not,
        Bool.not_eq_true', Bool.not_eq_false] at hskip
      obtain ⟨⟨htype, hne⟩, htruthy⟩ := hskip
      simp only [htype, Option.some.injEq, forall_eq', htruthy, ne_eq, hne, not_false_eq_true,
        forall_const]
      cases clientSecret with
      | str secret => cases hv : P.crypt.verify secret hash <;> simp [hv]
      | _ => simp

theorem not_protocolError_of_findByRaw {rows : List (Row Token)} {raw : Json}
    {cond : Token → Bool} {e : Exn} (h : findByRaw P rows raw cond = .error e) :
    ¬ ProtocolError e := by
  unfold findByRaw at h
  split at h
  · cases h
  · split at h
    · cases CryptContext.eq_bad_of_firstMatch h
      exact id
    · cases h
    · cases h
      exact id

theorem not_protocolError_of_lookup {rows : List (Row Token)} {now : Int} {raw : Json}
    {tokenType : TokenType} {client : Option Nat} {e : Exn}
    (h : lookup P rows now raw tokenType client = .error e) : ¬ ProtocolError e :=
  not_protocolError_of_findByRaw h

theorem findByRaw_returns_iff {rows : List (Row Token)} {raw : Json} {cond : Token → Bool} :
    (∃ found, findByRaw P rows raw cond = .ok found) ↔ Searchable P rows cond raw := by
  unfold findByRaw Searchable
  by_cases htruthy : raw.truthy = true
  · rw [if_neg (by simp [htruthy]), imp_iff_right htruthy]
    cases raw with
    | str text =>
      simp only [reduceCtorEq, exists_false, Json.str.injEq, false_or, exists_eq_left',
        ← CryptContext.firstMatch_error_iff hashError]
      unfold sharingIndex
      generalize P.crypt.firstMatch hashError _ _ _ = r
      cases r <;> simp
    | arr items => simp
    | _ => simp
  · rw [if_pos (by simpa using htruthy)]
    exact iff_of_true ⟨none, rfl⟩ fun h => absurd h htruthy

theorem not_protocolError_of_checkPkce {t : Token} {codeVerifier : Json} {e : Exn}
    (h : t.checkPkce codeVerifier = .error e) : ¬ ProtocolError e := by
  have hcompare : ∀ {a : Json} {b : String}, compareDigest a b = .error e → ¬ ProtocolError e := by
    intro a b h
    unfold compareDigest at h
    split at h
    · split at h
      · cases h
      · cases h
        exact id
    · cases h
      exact id
  have htransform : s256 codeVerifier = .error e → ¬ ProtocolError e := by
    intro h
    unfold s256 at h
    split at h
    · split at h
      · cases h
      · cases h
        exact id
    · cases h
      exact id
  unfold Token.checkPkce at h
  split at h
  · cases h
  · split at h
    · cases h
    · split at h
      · exact hcompare h
      · split at h
        · exact hcompare h
        · next hs =>
          cases h
          exact htransform hs

/-! ## The grants -/

/-- Issuing a token raises nothing. -/
theorem raisesOnly_issue_bind {client : Row Client} {user : Option Nat} {tokenType : TokenType}
    {scope : Json} {lifetime : Int} {challenge : Option Json} {method : Option ChallengeMethod}
    {f : String → OauthM Reply} (h : ∀ raw s', (f raw).RaisesOnly ProtocolError s') :
    (issue P client user tokenType scope lifetime challenge method >>= f).RaisesOnly
      ProtocolError s :=
  (Prog.raisesOnly_bind_of_run (run_issue_ok.mpr ⟨rfl, rfl⟩)).mpr (h _ _)

theorem raisesOnly_tokenClientCredentials {client : Row Client} {clientSecret : Json} :
    (tokenClientCredentials P client clientSecret kw).RaisesOnly ProtocolError s ↔
      SecretChecks P client.val clientSecret := by
  unfold tokenClientCredentials
  rw [Prog.raisesOnly_require_bind (protocolError_restAuthError _ _ (by decide)),
    Prog.raisesOnly_ofExcept_bind fun e => not_protocolError_of_checkClientSecret]
  constructor
  · intro h htype
    obtain ⟨b, hb, -⟩ := h (beq_iff_eq.mpr htype)
    exact checkClientSecret_returns_iff.mp ⟨b, hb⟩ htype
  · intro h _
    obtain ⟨b, hb⟩ := checkClientSecret_returns_iff.mpr h
    refine ⟨b, hb, (Prog.raisesOnly_require_bind
      (protocolError_restAuthError _ _ (by decide))).mpr fun _ => ?_⟩
    exact raisesOnly_issue_bind fun _ _ => Prog.raisesOnly_pure _

theorem raisesOnly_checkClientSecret_bind {client : Row Client} {clientSecret : Json}
    {f : Unit → OauthM Reply} :
    (checkClientSecretIfConfidential P client clientSecret >>= f).RaisesOnly ProtocolError s ↔
      SecretChecks P client.val clientSecret ∧
        ((client.val.clientType = .confidential →
          client.val.checkClientSecret P clientSecret = .ok true) →
        (f ()).RaisesOnly ProtocolError s) := by
  rw [Prog.raisesOnly_bind]
  simp only [run_checkClientSecret_ok, and_imp]
  refine and_congr ?_
    ⟨fun h hsecret => h () s hsecret rfl, fun h _ s' hsecret he => he ▸ h hsecret⟩
  unfold checkClientSecretIfConfidential
  by_cases htype : client.val.clientType = .confidential
  · rw [if_neg (not_not_intro htype),
      Prog.raisesOnly_ofExcept_bind fun e => not_protocolError_of_checkClientSecret,
      ← checkClientSecret_returns_iff]
    exact exists_congr fun b => and_iff_left
      (Prog.raisesOnly_require (protocolError_restAuthError _ _ (by decide)))
  · rw [if_pos htype]
    exact iff_of_true (Prog.raisesOnly_pure ()) fun h => absurd h htype

/-- A lookup that has to find a row. -/
theorem raisesOnly_lookup_bind {raw : Json} {tokenType : TokenType} {client : Option Nat}
    {missing unknown : Exn} (hmissing : ProtocolError missing) (hunknown : ProtocolError unknown)
    {f : Row Token → OauthM Reply} :
    Prog.RaisesOnly ProtocolError (do
      require raw.truthy missing
      let rows ← getRows
      let now ← getNow
      let found ← ofExcept (lookup P rows now raw tokenType client)
      let record ← ofOption found unknown
      f record) s ↔
    Searchable P s.rows (isLive s.now tokenType client) raw ∧
      ∀ record, lookup P s.rows s.now raw tokenType client = .ok (some record) →
        (f record).RaisesOnly ProtocolError s := by
  rw [Prog.raisesOnly_require_bind hmissing, Prog.raisesOnly_bind_of_run (Prog.run_getRows s),
    Prog.raisesOnly_bind_of_run (Prog.run_getNow s),
    Prog.raisesOnly_ofExcept_bind fun e => not_protocolError_of_lookup]
  simp only [Prog.raisesOnly_ofOption_bind hunknown]
  constructor
  · intro h
    refine ⟨fun htruthy => ?_, fun record hrecord => ?_⟩
    · obtain ⟨found, hfound, -⟩ := h htruthy
      exact findByRaw_returns_iff.mp ⟨found, hfound⟩ htruthy
    · obtain ⟨found, hfound, hf⟩ := h (truthy_of_findByRaw hrecord)
      exact hf record (Except.ok.inj (hfound.symm.trans hrecord))
  · rintro ⟨hsearch, hf⟩ _
    obtain ⟨found, hfound⟩ := findByRaw_returns_iff.mpr hsearch
    exact ⟨found, hfound, fun record hrecord => hf record (hrecord ▸ hfound)⟩

theorem raisesOnly_tokenAuthorizationCode {client : Row Client} :
    (tokenAuthorizationCode P client kw).RaisesOnly ProtocolError s ↔
      Searchable P s.rows (isLive s.now .code (some client.id)) (kw.get "code") ∧
        ∀ code, lookup P s.rows s.now (kw.get "code") .code (some client.id) = .ok (some code) →
          code.val.Comparable (kw.get "code_verifier") := by
  unfold tokenAuthorizationCode
  rw [raisesOnly_lookup_bind (protocolError_restAuthError _ _ (by decide))
    (protocolError_restAuthError _ _ (by decide))]
  refine and_congr_right fun _ => forall₂_congr fun code _ => ?_
  rw [Prog.raisesOnly_ofExcept_bind fun e => not_protocolError_of_checkPkce,
    ← checkPkce_returns_iff]
  refine exists_congr fun b => and_iff_left_of_imp fun _ => ?_
  refine (Prog.raisesOnly_require_bind
    (protocolError_restAuthError _ _ (by decide))).mpr fun _ => ?_
  refine (Prog.raisesOnly_bind_of_run (Prog.run_writeRow s _ _)).mpr ?_
  exact raisesOnly_issue_bind fun _ _ => raisesOnly_issue_bind fun _ _ => Prog.raisesOnly_pure _

theorem raisesOnly_tokenRefreshToken {client : Row Client} :
    (tokenRefreshToken P client kw).RaisesOnly ProtocolError s ↔
      Searchable P s.rows (isLive s.now .refresh (some client.id)) (kw.get "refresh_token") := by
  unfold tokenRefreshToken
  rw [raisesOnly_lookup_bind (protocolError_restAuthError _ _ (by decide))
    (protocolError_restAuthError _ _ (by decide))]
  refine and_iff_left fun refresh _ => ?_
  exact raisesOnly_issue_bind fun _ _ => Prog.raisesOnly_pure _

/-! ## The endpoints -/

theorem from_iff {client : Row Client} :
    From P s authorization kw client ↔ Presents s authorization kw client ∧
      (client.val.clientType = .confidential → client.val.checkClientSecret P
        (extractClientCredentials authorization kw).2 = .ok true) :=
  ⟨fun h => ⟨⟨h.truthy, h.found⟩, h.secret⟩, fun h => ⟨h.1.truthy, h.1.found, h.2⟩⟩

/-- The client has to be named and known. -/
theorem raisesOnly_client_bind {missing unknown : Exn} (hmissing : ProtocolError missing)
    (hunknown : ProtocolError unknown) {f : Row Client → OauthM Reply} :
    Prog.RaisesOnly ProtocolError (do
      require (extractClientCredentials authorization kw).1.truthy missing
      let client ← ofOption (findClient s.ctx (extractClientCredentials authorization kw).1) unknown
      f client) s ↔
    ∀ client, Presents s authorization kw client → (f client).RaisesOnly ProtocolError s := by
  rw [Prog.raisesOnly_require_bind hmissing, Prog.raisesOnly_ofOption_bind hunknown]
  exact ⟨fun h client hclient => h hclient.truthy client hclient.found,
    fun h htruthy client hfound => h client ⟨htruthy, hfound⟩⟩

theorem raisesOnly_token_iff :
    (token P authorization kw).RaisesOnly ProtocolError s ↔
      TokenWellFormed P s authorization kw := by
  unfold token
  rw [Prog.raisesOnly_bind_of_run (Prog.run_getContext s),
    Prog.raisesOnly_ofOption_bind (protocolError_restAuthError _ _ (by decide))]
  refine (forall₂_congr fun grant _ =>
    (raisesOnly_client_bind (protocolError_restAuthError _ _ (by decide))
      (protocolError_restAuthError _ _ (by decide))).trans
    (forall₂_congr fun client _ =>
      Prog.raisesOnly_require_bind (protocolError_restAuthError _ _ (by decide)))).trans ?_
  constructor
  · intro h
    refine ⟨fun grant client hgrant hclient hallows => ?_, fun client hgrant hfrom hallows => ?_,
      fun client hgrant hfrom hallows => ?_⟩
    · have h := h grant hgrant client hclient hallows
      cases grant with
      | clientCredentials => exact raisesOnly_tokenClientCredentials.mp h
      | authorizationCode => exact (raisesOnly_checkClientSecret_bind.mp h).1
      | refreshToken => exact (raisesOnly_checkClientSecret_bind.mp h).1
    · have h := h _ hgrant client (from_iff.mp hfrom).1 hallows
      exact raisesOnly_tokenAuthorizationCode.mp
        ((raisesOnly_checkClientSecret_bind.mp h).2 hfrom.secret)
    · have h := h _ hgrant client (from_iff.mp hfrom).1 hallows
      exact raisesOnly_tokenRefreshToken.mp
        ((raisesOnly_checkClientSecret_bind.mp h).2 hfrom.secret)
  · intro h grant hgrant client hclient hallows
    have hsecret := h.secret grant client hgrant hclient hallows
    cases grant with
    | clientCredentials => exact raisesOnly_tokenClientCredentials.mpr hsecret
    | authorizationCode =>
      exact raisesOnly_checkClientSecret_bind.mpr ⟨hsecret, fun hpasses =>
        raisesOnly_tokenAuthorizationCode.mpr
          (h.code client hgrant (from_iff.mpr ⟨hclient, hpasses⟩) hallows)⟩
    | refreshToken =>
      exact raisesOnly_checkClientSecret_bind.mpr ⟨hsecret, fun hpasses =>
        raisesOnly_tokenRefreshToken.mpr
          (h.refreshToken client hgrant (from_iff.mpr ⟨hclient, hpasses⟩) hallows)⟩

theorem raisesOnly_lookupForRevoke {client : Nat} {raw : Json} :
    Prog.RaisesOnly ProtocolError (do
      let rows ← getRows
      let record ← ofExcept (lookupForRevoke P rows raw client)
      writeAll .revoked (record.toList.map (·.id))
      pure .empty : OauthM Reply) s ↔ Searchable P s.rows (isRevocable client) raw := by
  have hreply : ∀ record : Option (Row Token),
      Prog.RaisesOnly ProtocolError (do
        writeAll TokenWrite.revoked (record.toList.map (·.id))
        pure .empty : OauthM Reply) s :=
    fun record => (Prog.raisesOnly_bind_of_run (Prog.run_writeAll s _ _)).mpr
      (Prog.raisesOnly_pure _)
  rw [Prog.raisesOnly_bind_of_run (Prog.run_getRows s),
    Prog.raisesOnly_ofExcept_bind (r := lookupForRevoke P s.rows raw client)
      fun e => not_protocolError_of_findByRaw, ← findByRaw_returns_iff]
  exact exists_congr fun record => and_iff_left (hreply record)

theorem raisesOnly_revoke_iff :
    (revoke P authorization kw).RaisesOnly ProtocolError s ↔
      RevokeWellFormed P s authorization kw := by
  unfold revoke
  rw [Prog.raisesOnly_bind_of_run (Prog.run_getContext s),
    Prog.raisesOnly_require_bind (protocolError_restAuthError _ _ (by decide))]
  refine (imp_congr_right fun _ =>
    (raisesOnly_client_bind (protocolError_restAuthError _ _ (by decide))
      (protocolError_restAuthError _ _ (by decide))).trans
    (forall₂_congr fun client _ => raisesOnly_checkClientSecret_bind.trans
      (and_congr_right fun _ => imp_congr_right fun _ => raisesOnly_lookupForRevoke))).trans ?_
  constructor
  · intro h
    refine ⟨fun client htruthy hclient => (h htruthy client hclient).1,
      fun client hfrom htruthy => ?_⟩
    exact (h htruthy client (from_iff.mp hfrom).1).2 hfrom.secret htruthy
  · intro h htruthy client hclient
    exact ⟨h.secret client htruthy hclient, fun hpasses =>
      h.token client (from_iff.mpr ⟨hclient, hpasses⟩)⟩

/-- The endpoints answer what is malformed with a protocol error, up to the parameters that a
primitive they are given to refuses. -/
theorem protocolErrorsOnly_iff :
    ProtocolErrorsOnly P s authorization kw ↔
      TokenWellFormed P s authorization kw ∧ RevokeWellFormed P s authorization kw :=
  and_congr raisesOnly_token_iff raisesOnly_revoke_iff

/-- A token that is a number. -/
def revokeNumber : Kw :=
  [("client_id", .str "web"), ("client_secret", .str "soc_secret"), ("token", .int 5)]

/-- The client revokes a number: cutting it to an index raises a `TypeError`. -/
theorem not_protocolErrorsOnly :
    ¬ ProtocolErrorsOnly Platform.sample (initial [webClient] 0) none revokeNumber := by
  intro h
  have hraises : ((revoke Platform.sample none revokeNumber).run (initial [webClient] 0)).1 =
      .error (.python "TypeError") := by rfl
  exact h.2 _ hraises

end SsiRest.Oauth
