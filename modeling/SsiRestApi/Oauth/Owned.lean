import SsiRestApi.Oauth.Server

/-!
# The tokens of one user

When a request to the endpoints changes the tokens a user owns.

    the tokens of a user change ↔ the request issues one for them, or spends,
      uses or revokes one of theirs
                           (owned_authorize_iff, owned_token_iff, owned_revoke_iff)
-/

namespace SsiRest.Oauth

open Py Tx

/-- The tokens a user owns. -/
def owned (uid : Nat) (rows : List (Row Token)) : List (Row Token) :=
  rows.filter fun r => r.val.userId == some uid

/-- The checks of an authorize call. -/
structure AuthorizesClient (P : Platform) (s : State) (kw : Kw) : Prop where
  required : (kw.get "client_id").truthy = true ∧ (kw.get "redirect_uri").truthy = true
  client : ∃ client, findClient s.ctx (kw.get "client_id") = some client ∧
    client.val.hasRedirectUri (kw.get "redirect_uri") = true ∧
    client.val.allowsGrant "authorization_code" = true
  responseType : (kw.get "response_type").isStr "code" = true
  codeChallenge : (kw.get "code_challenge").truthy = true
  method : (challengeMethod ((kw.get "code_challenge_method").orElse (.str "S256"))).isSome = true
  /-- The redirect URI is well-formed. -/
  target : ∃ target, P.appendQuery (kw.get "redirect_uri")
    [("code", .str (rawValue P s.drawn)), ("state", kw.get "state")] = .ok target

/-- The client a token or revoke request is from. -/
structure From (P : Platform) (s : State) (authorization : Option String) (kw : Kw)
    (client : Row Client) : Prop where
  truthy : (extractClientCredentials authorization kw).1.truthy = true
  found : findClient s.ctx (extractClientCredentials authorization kw).1 = some client
  secret : client.val.clientType = .confidential →
    client.val.checkClientSecret P (extractClientCredentials authorization kw).2 = .ok true

/-- A client redeems a code. -/
structure RedeemsCode (P : Platform) (s : State) (authorization : Option String) (kw : Kw)
    (client : Row Client) (code : Row Token) : Prop where
  grant : grantType kw = some .authorizationCode
  sender : From P s authorization kw client
  allows : client.val.allowsGrant "authorization_code" = true
  found : lookup P s.rows s.now (kw.get "code") .code (some client.id) = .ok (some code)
  pkce : code.val.checkPkce (kw.get "code_verifier") = .ok true

/-- A client uses a refresh token. -/
structure Refreshes (P : Platform) (s : State) (authorization : Option String) (kw : Kw)
    (client : Row Client) (refresh : Row Token) : Prop where
  grant : grantType kw = some .refreshToken
  sender : From P s authorization kw client
  allows : client.val.allowsGrant "refresh_token" = true
  found : lookup P s.rows s.now (kw.get "refresh_token") .refresh (some client.id) =
    .ok (some refresh)

/-- A client revokes a token. -/
structure Revokes (P : Platform) (s : State) (authorization : Option String) (kw : Kw)
    (client : Row Client) (record : Row Token) : Prop where
  sender : From P s authorization kw client
  found : lookupForRevoke P s.rows (kw.get "token") client.id = .ok (some record)

/-- The request changes the tokens of a user. -/
inductive Changes (P : Platform) (s : State) (uid : Nat) : Request → Prop
  | authorize {kw : Kw} (h : AuthorizesClient P s kw) : Changes P s uid (.authorize uid kw)
  | redeem {authorization : Option String} {kw : Kw} {client : Row Client} {code : Row Token}
      (h : RedeemsCode P s authorization kw client code) (howner : code.val.userId = some uid) :
      Changes P s uid (.token authorization kw)
  | refresh {authorization : Option String} {kw : Kw} {client : Row Client} {refresh : Row Token}
      (h : Refreshes P s authorization kw client refresh)
      (howner : refresh.val.userId = some uid) : Changes P s uid (.token authorization kw)
  | revoke {authorization : Option String} {kw : Kw} {client : Row Client} {record : Row Token}
      (h : Revokes P s authorization kw client record) (howner : record.val.userId = some uid)
      (hlive : record.val.revoked = false) : Changes P s uid (.revoke authorization kw)

variable {P : Platform} {s s' : State} {uid : Nat} {kw : Kw} {authorization : Option String}
  {reply : Reply}

/-! ## What a user owns after an operation -/

/-- A new token of the user makes their list longer. -/
theorem owned_cons_eq_iff {uid : Nat} {r : Row Token} {rows rows' : List (Row Token)}
    (hlength : (owned uid rows').length = (owned uid rows).length) :
    owned uid (r :: rows') = owned uid rows ↔
      r.val.userId ≠ some uid ∧ owned uid rows' = owned uid rows := by
  unfold owned at hlength ⊢
  by_cases h : r.val.userId = some uid
  · rw [List.filter_cons_of_pos (by simpa using h)]
    refine iff_of_false (fun he => ?_) fun hne => hne.1 h
    have he := congrArg List.length he
    rw [List.length_cons, hlength] at he
    omega
  · rw [List.filter_cons_of_neg (by simpa using h)]
    exact (and_iff_right h).symm

theorem owned_revoked (uid id : Nat) (rows : List (Row Token)) :
    owned uid ((RowOp.upd id TokenWrite.revoked).apply rows) =
      (RowOp.upd id TokenWrite.revoked).apply (owned uid rows) := by
  unfold owned
  rw [RowOp.apply_upd, RowOp.apply_upd, List.filter_map]
  congr 1
  refine List.filter_congr fun r _ => ?_
  simp only [Function.comp_apply]
  split <;> rfl

theorem length_owned_revoked (uid id : Nat) (rows : List (Row Token)) :
    (owned uid ((RowOp.upd id TokenWrite.revoked).apply rows)).length =
      (owned uid rows).length := by
  rw [owned_revoked, RowOp.apply_upd, List.length_map]

theorem revoked_eq_self_iff {id : Nat} {rows : List (Row Token)} :
    (RowOp.upd id TokenWrite.revoked).apply rows = rows ↔
      ∀ r ∈ rows, r.id = id → r.val.revoked = true := by
  have hmap : (RowOp.upd id TokenWrite.revoked).apply rows = rows ↔
      rows.map (fun r => if r.id = id then ⟨r.id, update TokenWrite.revoked r.val⟩ else r) =
        rows.map fun r => r := by
    rw [List.map_id', RowOp.apply_upd]
  rw [hmap, List.map_inj_left]
  refine forall₂_congr fun r _ => ?_
  obtain ⟨rid, val⟩ := r
  by_cases hid : rid = id
  · cases val
    simp [hid, eq_comm]
  · simp [hid]

/-- Revoking a record changes what its owner owns, unless it was revoked already. -/
theorem owned_revoked_eq_iff {n : Nat} {rows : List (Row Token)} (hnum : Numbered n rows)
    {record : Row Token} (hrecord : record ∈ rows) {uid : Nat} :
    owned uid ((RowOp.upd record.id TokenWrite.revoked).apply rows) = owned uid rows ↔
      ¬ (record.val.userId = some uid ∧ record.val.revoked = false) := by
  rw [owned_revoked, revoked_eq_self_iff, not_and, Bool.not_eq_false]
  constructor
  · intro h howner
    exact h record (List.mem_filter.mpr ⟨hrecord, by simpa using howner⟩) rfl
  · intro h r hr hid
    obtain ⟨hr, howner⟩ := List.mem_filter.mp hr
    obtain rfl := hnum.eq_of_id hr hrecord hid
    exact h (by simpa using howner)

/-! ## Runs that return -/

/-- A row `issue` creates, in a later state. -/
theorem run_issue_ok {client : Row Client} {user : Option Nat} {tokenType : TokenType}
    {scope : Json} {lifetime : Int} {challenge : Option Json} {method : Option ChallengeMethod}
    {raw : String} :
    (issue P client user tokenType scope lifetime challenge method).run s = (.ok raw, s') ↔
      rawValue P s.drawn = raw ∧
        ({ s with
          rows := ⟨s.nextId, newToken P s.drawn s.now client.id user tokenType scope lifetime
            challenge method⟩ :: s.rows
          drawn := s.drawn + 1
          nextId := s.nextId + 1 } : State) = s' := by
  unfold issue
  simp [Prog.run_bind]

theorem run_checkClientSecret_ok {client : Row Client} {clientSecret : Json} {u : Unit} :
    (checkClientSecretIfConfidential P client clientSecret).run s = (.ok u, s') ↔
      (client.val.clientType = .confidential →
        client.val.checkClientSecret P clientSecret = .ok true) ∧ s = s' := by
  unfold checkClientSecretIfConfidential
  by_cases h : client.val.clientType = .confidential
  · rw [if_neg (not_not_intro h)]
    simp only [Prog.run_bind_ok, Prog.run_ofExcept_ok, Prog.run_require_ok]
    simp [h]
  · rw [if_pos h, Prog.run_pure_ok]
    simp [h]

theorem of_run_authorize (h : (authorize P uid kw).run s = (.ok reply, s')) :
    AuthorizesClient P s kw ∧ (∃ r, s'.rows = r :: s.rows ∧ r.val.userId = some uid) ∧
      ∃ target, P.appendQuery (kw.get "redirect_uri")
        [("code", .str (rawValue P s.drawn)), ("state", kw.get "state")] = .ok target ∧
        reply = .redirect target := by
  unfold authorize at h
  simp only [Prog.run_bind_ok, Prog.run_require_ok, Prog.run_ofOption_ok, Prog.run_ofExcept_ok,
    Prog.run_getContext, Prog.run_pure_ok, run_issue_ok, Prod.mk.injEq, Except.ok.injEq,
    Bool.and_eq_true] at h
  obtain ⟨_, _, ⟨rfl, rfl⟩, _, _, ⟨hrequired, rfl⟩, client, _, ⟨hclient, rfl⟩, _, _, ⟨huri, rfl⟩,
    _, _, ⟨hresponse, rfl⟩, _, _, ⟨hgrant, rfl⟩, _, _, ⟨hchallenge, rfl⟩, method, _,
    ⟨hmethod, rfl⟩, raw, _, ⟨rfl, rfl⟩, target, _, ⟨htarget, rfl⟩, rfl, rfl⟩ := h
  exact ⟨⟨hrequired, ⟨client, hclient, huri, hgrant⟩, hresponse, hchallenge,
    Option.isSome_iff_exists.mpr ⟨method, hmethod⟩, ⟨target, htarget⟩⟩, ⟨_, rfl, rfl⟩, target,
    htarget, rfl⟩

theorem run_of_authorizesClient (h : AuthorizesClient P s kw) (uid : Nat) :
    ∃ reply s', (authorize P uid kw).run s = (.ok reply, s') := by
  obtain ⟨hrequired, ⟨client, hclient, huri, hgrant⟩, hresponse, hchallenge, hmethod, target,
    htarget⟩ := h
  obtain ⟨method, hmethod⟩ := Option.isSome_iff_exists.mp hmethod
  unfold authorize
  simp [Prog.run_bind, issue, hrequired, hclient, huri, hgrant, hresponse, hchallenge, hmethod,
    htarget]

/-- A token that redeeming the code issues, made of the `i`-th random text. -/
def redeemedToken (P : Platform) (s : State) (client : Row Client) (code : Token) (i : Nat)
    (tokenType : TokenType) (lifetime : Int) : Token :=
  newToken P i s.now client.id code.userId tokenType (.str code.scope) lifetime none none

/-- The table after a client has redeemed a code. -/
def redeemedRows (P : Platform) (s : State) (client : Row Client) (code : Row Token) :
    List (Row Token) :=
  ⟨s.nextId + 1, redeemedToken P s client code.val (s.drawn + 1) .refresh
      client.val.refreshTokenLifetime⟩ ::
    ⟨s.nextId, redeemedToken P s client code.val s.drawn .access
      client.val.accessTokenLifetime⟩ ::
    (RowOp.upd code.id TokenWrite.revoked).apply s.rows

theorem of_run_token (h : (token P authorization kw).run s = (.ok reply, s')) :
    (∃ client code, RedeemsCode P s authorization kw client code ∧
      s'.rows = redeemedRows P s client code) ∨
    (∃ client refresh r, Refreshes P s authorization kw client refresh ∧
      s'.rows = r :: s.rows ∧ r.val.userId = refresh.val.userId) ∨
    (grantType kw = some .clientCredentials ∧
      ∃ r, s'.rows = r :: s.rows ∧ r.val.userId = none) := by
  unfold token at h
  simp only [Prog.run_bind_ok, Prog.run_require_ok, Prog.run_ofOption_ok, Prog.run_getContext,
    Prod.mk.injEq, Except.ok.injEq] at h
  obtain ⟨_, _, ⟨rfl, rfl⟩, grant, _, ⟨hgrant, rfl⟩, _, _, ⟨htruthy, rfl⟩, client, _,
    ⟨hclient, rfl⟩, _, _, ⟨hallows, rfl⟩, h⟩ := h
  cases grant with
  | clientCredentials =>
    simp only [tokenClientCredentials, Prog.run_bind_ok, Prog.run_require_ok,
      Prog.run_ofExcept_ok, run_issue_ok, Prog.run_pure_ok] at h
    obtain ⟨_, _, ⟨-, rfl⟩, _, _, ⟨-, rfl⟩, _, _, ⟨-, rfl⟩, _, _, ⟨rfl, rfl⟩, rfl, rfl⟩ := h
    exact Or.inr (Or.inr ⟨hgrant, _, rfl, rfl⟩)
  | authorizationCode =>
    simp only [tokenAuthorizationCode, Prog.run_bind_ok, Prog.run_require_ok, Prog.run_getRows,
      Prog.run_getNow, Prog.run_ofExcept_ok, Prog.run_ofOption_ok, Prog.run_writeRow,
      run_issue_ok, run_checkClientSecret_ok, Prog.run_pure_ok, Prod.mk.injEq,
      Except.ok.injEq] at h
    obtain ⟨_, _, ⟨hsecret, rfl⟩, _, _, ⟨-, rfl⟩, _, _, ⟨rfl, rfl⟩, _, _, ⟨rfl, rfl⟩, found, _,
      ⟨hfound, rfl⟩, code, _, ⟨rfl, rfl⟩, pkce, _, ⟨hpkce, rfl⟩, _, _, ⟨rfl, rfl⟩, _, _,
      ⟨-, rfl⟩, _, _, ⟨rfl, rfl⟩, _, _, ⟨rfl, rfl⟩, rfl, rfl⟩ := h
    exact Or.inl ⟨client, code,
      ⟨hgrant, ⟨htruthy, hclient, hsecret⟩, hallows, hfound, hpkce⟩, rfl⟩
  | refreshToken =>
    simp only [tokenRefreshToken, Prog.run_bind_ok, Prog.run_require_ok, Prog.run_getRows,
      Prog.run_getNow, Prog.run_ofExcept_ok, Prog.run_ofOption_ok, run_issue_ok,
      run_checkClientSecret_ok, Prog.run_pure_ok, Prod.mk.injEq, Except.ok.injEq] at h
    obtain ⟨_, _, ⟨hsecret, rfl⟩, _, _, ⟨-, rfl⟩, _, _, ⟨rfl, rfl⟩, _, _, ⟨rfl, rfl⟩, found, _,
      ⟨hfound, rfl⟩, refresh, _, ⟨rfl, rfl⟩, _, _, ⟨rfl, rfl⟩, rfl, rfl⟩ := h
    exact Or.inr (Or.inl ⟨client, refresh, _,
      ⟨hgrant, ⟨htruthy, hclient, hsecret⟩, hallows, hfound⟩, rfl, rfl⟩)

theorem truthy_of_findByRaw {rows : List (Row Token)} {raw : Json} {cond : Token → Bool}
    {r : Row Token} (h : findByRaw P rows raw cond = .ok (some r)) : raw.truthy = true := by
  unfold findByRaw at h
  split at h
  · cases h
  · next hraw => simpa using hraw

theorem run_checkClientSecret_of_from {client : Row Client} (h : From P s authorization kw client) :
    (checkClientSecretIfConfidential P client (extractClientCredentials authorization kw).2).run s =
      (.ok (), s) :=
  run_checkClientSecret_ok.mpr ⟨h.secret, rfl⟩

theorem run_of_redeemsCode {client : Row Client} {code : Row Token}
    (h : RedeemsCode P s authorization kw client code) :
    ∃ reply s', (token P authorization kw).run s = (.ok reply, s') := by
  obtain ⟨hgrant, hsender, hallows, hfound, hpkce⟩ := h
  have htruthy := truthy_of_findByRaw hfound
  have hallows' : client.val.allowsGrant GrantType.authorizationCode.name = true := hallows
  unfold token
  simp [Prog.run_bind, hgrant, hsender.truthy, hsender.found, hallows',
    run_checkClientSecret_of_from hsender, tokenAuthorizationCode, htruthy, hfound, hpkce, issue]

theorem run_of_refreshes {client : Row Client} {refresh : Row Token}
    (h : Refreshes P s authorization kw client refresh) :
    ∃ reply s', (token P authorization kw).run s = (.ok reply, s') := by
  obtain ⟨hgrant, hsender, hallows, hfound⟩ := h
  have htruthy := truthy_of_findByRaw hfound
  have hallows' : client.val.allowsGrant GrantType.refreshToken.name = true := hallows
  unfold token
  simp [Prog.run_bind, hgrant, hsender.truthy, hsender.found, hallows',
    run_checkClientSecret_of_from hsender, tokenRefreshToken, htruthy, hfound, issue]

theorem of_run_revoke (h : (revoke P authorization kw).run s = (.ok reply, s')) :
    s'.rows = s.rows ∨ ∃ client record, Revokes P s authorization kw client record ∧
      s'.rows = (RowOp.upd record.id TokenWrite.revoked).apply s.rows := by
  unfold revoke at h
  simp only [Prog.run_bind_ok, Prog.run_require_ok, Prog.run_ofOption_ok, Prog.run_ofExcept_ok,
    Prog.run_getContext, Prog.run_getRows, Prog.run_writeAll, run_checkClientSecret_ok,
    Prog.run_pure_ok, Prod.mk.injEq, Except.ok.injEq] at h
  obtain ⟨_, _, ⟨rfl, rfl⟩, _, _, ⟨-, rfl⟩, _, _, ⟨htruthy, rfl⟩, client, _, ⟨hclient, rfl⟩, _, _,
    ⟨hsecret, rfl⟩, _, _, ⟨rfl, rfl⟩, record, _, ⟨hrecord, rfl⟩, _, _, ⟨-, rfl⟩, -, rfl⟩ := h
  cases record with
  | none => exact Or.inl rfl
  | some record => exact Or.inr ⟨client, record, ⟨⟨htruthy, hclient, hsecret⟩, hrecord⟩, rfl⟩

theorem run_of_revokes {client : Row Client} {record : Row Token}
    (h : Revokes P s authorization kw client record) :
    ∃ reply s', (revoke P authorization kw).run s = (.ok reply, s') ∧
      s'.rows = (RowOp.upd record.id TokenWrite.revoked).apply s.rows := by
  obtain ⟨hsender, hfound⟩ := h
  have htruthy := truthy_of_findByRaw hfound
  unfold revoke
  simp [Prog.run_bind, hsender.truthy, hsender.found, run_checkClientSecret_of_from hsender,
    htruthy, hfound, Prog.run_writeAll]

/-! ## Exactly when -/

theorem owned_authorize_iff {uid' : Nat} :
    owned uid' ((authorize P uid kw).transact s).1.rows = owned uid' s.rows ↔
      ¬ Changes P s uid' (.authorize uid kw) := by
  rw [Prog.transact_rows_iff (I := fun rows => owned uid' rows = owned uid' s.rows) rfl]
  constructor
  · rintro hsame ⟨hauthorizes⟩
    obtain ⟨reply, s', hrun⟩ := run_of_authorizesClient hauthorizes uid
    obtain ⟨-, ⟨r, hrows, howner⟩, -⟩ := of_run_authorize hrun
    have h := hsame reply s' hrun
    rw [hrows, owned_cons_eq_iff rfl] at h
    exact h.1 howner
  · intro hnot reply s' hrun
    obtain ⟨hauthorizes, ⟨r, hrows, howner⟩, -⟩ := of_run_authorize hrun
    rw [hrows, owned_cons_eq_iff rfl]
    refine ⟨fun howner' => hnot ?_, rfl⟩
    obtain rfl := Option.some.inj (howner.symm.trans howner')
    exact .authorize hauthorizes

/-- What redeeming leaves a user with is what they had, if the code was not theirs. -/
theorem owned_redeemed_iff (hnum : Numbered s.nextId s.rows) {client : Row Client}
    {code : Row Token} (hcode : code ∈ s.rows) :
    owned uid (redeemedRows P s client code) = owned uid s.rows ↔
      code.val.userId ≠ some uid := by
  have howns : ∀ i tokenType lifetime,
      (redeemedToken P s client code.val i tokenType lifetime).userId = code.val.userId :=
    fun _ _ _ => rfl
  unfold redeemedRows
  by_cases howner : code.val.userId = some uid
  · refine iff_of_false (fun h => ?_) (not_not_intro howner)
    have h := congrArg List.length h
    have hlength := length_owned_revoked uid code.id s.rows
    unfold owned at h hlength
    rw [List.filter_cons_of_pos (by simp [howns, howner]),
      List.filter_cons_of_pos (by simp [howns, howner]), List.length_cons, List.length_cons,
      hlength] at h
    omega
  · refine iff_of_true ?_ howner
    have hrevoked : owned uid ((RowOp.upd code.id TokenWrite.revoked).apply s.rows) =
        owned uid s.rows := (owned_revoked_eq_iff hnum hcode).mpr fun h => howner h.1
    unfold owned at hrevoked ⊢
    rw [List.filter_cons_of_neg (by simp [howns, howner]),
      List.filter_cons_of_neg (by simp [howns, howner]), hrevoked]

theorem owned_token_iff (hnum : Numbered s.nextId s.rows) :
    owned uid ((token P authorization kw).transact s).1.rows = owned uid s.rows ↔
      ¬ Changes P s uid (.token authorization kw) := by
  rw [Prog.transact_rows_iff (I := fun rows => owned uid rows = owned uid s.rows) rfl]
  constructor
  · intro hsame hchanges
    cases hchanges with
    | redeem h howner =>
      obtain ⟨reply, s', hrun⟩ := run_of_redeemsCode h
      have hrows := hsame reply s' hrun
      rcases of_run_token hrun with ⟨client', code', h', he⟩ | ⟨client', refresh, r, h', -⟩ |
        ⟨hgrant, -⟩
      · -- the request names one client and one code
        obtain rfl := Option.some.inj (h.sender.found.symm.trans h'.sender.found)
        obtain rfl := Option.some.inj (Except.ok.inj (h.found.symm.trans h'.found))
        rw [he, owned_redeemed_iff hnum (lookup_some h.found).1] at hrows
        exact hrows howner
      · exact absurd (h.grant.symm.trans h'.grant) (by decide)
      · exact absurd (h.grant.symm.trans hgrant) (by decide)
    | refresh h howner =>
      obtain ⟨reply, s', hrun⟩ := run_of_refreshes h
      have hrows := hsame reply s' hrun
      rcases of_run_token hrun with ⟨client', code, h', -⟩ | ⟨client', refresh', r, h', he, hr⟩ |
        ⟨hgrant, -⟩
      · exact absurd (h.grant.symm.trans h'.grant) (by decide)
      · obtain rfl := Option.some.inj (h.sender.found.symm.trans h'.sender.found)
        obtain rfl := Option.some.inj (Except.ok.inj (h.found.symm.trans h'.found))
        rw [he, owned_cons_eq_iff rfl] at hrows
        exact hrows.1 (hr.trans howner)
      · exact absurd (h.grant.symm.trans hgrant) (by decide)
  · intro hnot reply s' hrun
    rcases of_run_token hrun with ⟨client, code, h, hrows⟩ |
      ⟨client, refresh, r, h, hrows, hr⟩ | ⟨-, r, hrows, hr⟩
    · rw [hrows, owned_redeemed_iff hnum (lookup_some h.found).1]
      exact fun howner => hnot (.redeem h howner)
    · rw [hrows, owned_cons_eq_iff rfl, hr]
      exact ⟨fun howner => hnot (.refresh h howner), rfl⟩
    · rw [hrows, owned_cons_eq_iff rfl, hr]
      exact ⟨fun h => (by cases h), rfl⟩

theorem owned_revoke_iff (hnum : Numbered s.nextId s.rows) :
    owned uid ((revoke P authorization kw).transact s).1.rows = owned uid s.rows ↔
      ¬ Changes P s uid (.revoke authorization kw) := by
  rw [Prog.transact_rows_iff (I := fun rows => owned uid rows = owned uid s.rows) rfl]
  constructor
  · intro hsame hchanges
    cases hchanges with | revoke h howner hlive =>
    obtain ⟨reply, s', hrun, hrows⟩ := run_of_revokes h
    have heq := hsame reply s' hrun
    rw [hrows, owned_revoked_eq_iff hnum (lookupForRevoke_some h.found).1] at heq
    exact heq ⟨howner, hlive⟩
  · intro hnot reply s' hrun
    rcases of_run_revoke hrun with hrows | ⟨client, record, h, hrows⟩
    · rw [hrows]
    · rw [hrows, owned_revoked_eq_iff hnum (lookupForRevoke_some h.found).1]
      exact fun hrecord => hnot (.revoke h hrecord.1 hrecord.2)

end SsiRest.Oauth
