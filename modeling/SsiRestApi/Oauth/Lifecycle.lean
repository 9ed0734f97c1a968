import SsiRestApi.Oauth.Exchange
import SsiRestApi.Oauth.Revocation
import SsiRestApi.Oauth.Vacuum

/-!
# The life of a token

Which steps of the server issue a token and which end it, exactly.

    a row is in the table and unrevoked ↔ a step of the run issued it and no later
      step ended it                                               (held_run)
    an access token authenticates ↔ the answer of some step handed it out, no later
      step ended it, and it has not expired                       (access_token_lifecycle)
    a refresh token or a code gets its client a token ↔ the same of it
                                                             (token_request_lifecycle)
-/

namespace SsiRest.Oauth

open Py Tx

/-- A confidential client asks for a token on its own behalf. -/
structure ActsAlone (P : Platform) (s : State) (authorization : Option String) (kw : Kw)
    (client : Row Client) : Prop where
  grant : grantType kw = some .clientCredentials
  truthy : (extractClientCredentials authorization kw).1.truthy = true
  found : findClient s.ctx (extractClientCredentials authorization kw).1 = some client
  allows : client.val.allowsGrant "client_credentials" = true
  confidential : client.val.clientType = .confidential
  secret : client.val.checkClientSecret P (extractClientCredentials authorization kw).2 = .ok true

/-- A step issues a token: its answer, the raw value that the answer hands out, and the row. -/
inductive Yields (P : Platform) (s : State) : Step → Reply → String → Row Token → Prop
  | code {uid : Nat} {kw : Kw} {client : Row Client} {method : ChallengeMethod} {target : String}
      (h : AuthorizesClient P s kw) (hclient : findClient s.ctx (kw.get "client_id") = some client)
      (hmethod : challengeMethod ((kw.get "code_challenge_method").orElse (.str "S256")) =
        some method)
      (htarget : P.appendQuery (kw.get "redirect_uri")
        [("code", .str (rawValue P s.drawn)), ("state", kw.get "state")] = .ok target) :
      Yields P s (.request (.authorize uid kw)) (.redirect target) (rawValue P s.drawn)
        ⟨s.nextId, newToken P s.drawn s.now client.id (some uid) .code (kw.get "scope")
          authCodeLifetimeSeconds (some (kw.get "code_challenge")) (some method)⟩
  | redeemedAccess {authorization : Option String} {kw : Kw} {client : Row Client}
      {code : Row Token} (h : RedeemsCode P s authorization kw client code) :
      Yields P s (.request (.token authorization kw))
        (tokenResponse client (rawValue P s.drawn) (.str code.val.scope)
          (some (rawValue P (s.drawn + 1))))
        (rawValue P s.drawn)
        ⟨s.nextId, redeemedToken P s client code.val s.drawn .access
          client.val.accessTokenLifetime⟩
  | redeemedRefresh {authorization : Option String} {kw : Kw} {client : Row Client}
      {code : Row Token} (h : RedeemsCode P s authorization kw client code) :
      Yields P s (.request (.token authorization kw))
        (tokenResponse client (rawValue P s.drawn) (.str code.val.scope)
          (some (rawValue P (s.drawn + 1))))
        (rawValue P (s.drawn + 1))
        ⟨s.nextId + 1, redeemedToken P s client code.val (s.drawn + 1) .refresh
          client.val.refreshTokenLifetime⟩
  | refreshed {authorization : Option String} {kw : Kw} {client : Row Client}
      {refresh : Row Token} (h : Refreshes P s authorization kw client refresh) :
      Yields P s (.request (.token authorization kw))
        (tokenResponse client (rawValue P s.drawn) (.str refresh.val.scope) none)
        (rawValue P s.drawn)
        ⟨s.nextId, redeemedToken P s client refresh.val s.drawn .access
          client.val.accessTokenLifetime⟩
  | alone {authorization : Option String} {kw : Kw} {client : Row Client}
      (h : ActsAlone P s authorization kw client) :
      Yields P s (.request (.token authorization kw))
        (tokenResponse client (rawValue P s.drawn) (clientCredentialsScope client kw) none)
        (rawValue P s.drawn)
        ⟨s.nextId, newToken P s.drawn s.now client.id none .access
          (clientCredentialsScope client kw) client.val.accessTokenLifetime none none⟩

/-- A step ends the life of a row. -/
inductive Ends (P : Platform) (s : State) (r : Row Token) : Step → Prop
  /-- A code is spent when it is redeemed. -/
  | redeemed {authorization : Option String} {kw : Kw} {client : Row Client}
      (h : RedeemsCode P s authorization kw client r) :
      Ends P s r (.request (.token authorization kw))
  | revoked {authorization : Option String} {kw : Kw} {client : Row Client}
      (h : Revokes P s authorization kw client r) :
      Ends P s r (.request (.revoke authorization kw))
  /-- From the list view, by a user that may write every row named. -/
  | actionRevoked {u : User} {ids : List Nat} (h : revokeAccess u ids s.rows = .ok ())
      (hid : r.id ∈ ids) : Ends P s r (.request (.actionRevoke u ids))
  | collected (h : r.val.expirationDate < s.now) : Ends P s r (.request .gcExpiredOauthToken)
  | clientDeleted {clients : Clients} (h : ∀ c ∈ clients, c.id ≠ r.val.clientId) :
      Ends P s r (.editClients clients)

/-- A step hands out a raw value in its answer and keeps this row of it. -/
def HandsOut (P : Platform) (raw : String) (r : Row Token) (s : State) (a : Step) : Prop :=
  ∃ reply, (server P).answer s a = some (.ok reply) ∧ Yields P s a reply raw r

/-- After a run: the raw value was handed out for a row of this type and client, no later step
ended the row, and it has not expired. -/
structure Current (P : Platform) (clients : Clients) (now : Int) (as : List Step) (raw : String)
    (tokenType : TokenType) (client : Option Nat) (r : Row Token) : Prop where
  since : (server P).Since (HandsOut P raw r) (fun s a => Ends P s r a) (initial clients now) as
  tokenType : r.val.tokenType = tokenType
  unexpired : ((server P).exec (initial clients now) as).now < r.val.expirationDate
  client : ∀ id ∈ client, r.val.clientId = id

/-- The row is in the table and unrevoked. -/
def Held (r : Row Token) (rows : List (Row Token)) : Prop := r ∈ rows ∧ r.val.revoked = false

variable {P : Platform} {s s' : State} {uid : Nat} {kw : Kw} {authorization : Option String}
  {reply : Reply} {r : Row Token} {raw : String}

/-! ## Exact outcomes -/

theorem exact_of_run_authorize (h : (authorize P uid kw).run s = (.ok reply, s')) :
    ∃ raw r, Yields P s (.request (.authorize uid kw)) reply raw r ∧ s'.rows = r :: s.rows := by
  obtain ⟨hauthorizes, -, target, htarget, rfl⟩ := of_run_authorize h
  unfold authorize at h
  simp only [Prog.run_bind_ok, Prog.run_require_ok, Prog.run_ofOption_ok, Prog.run_ofExcept_ok,
    Prog.run_getContext, Prog.run_pure_ok, run_issue_ok, Prod.mk.injEq, Except.ok.injEq] at h
  obtain ⟨_, _, ⟨rfl, rfl⟩, _, _, ⟨-, rfl⟩, client, _, ⟨hclient, rfl⟩, _, _, ⟨-, rfl⟩, _, _,
    ⟨-, rfl⟩, _, _, ⟨-, rfl⟩, _, _, ⟨-, rfl⟩, method, _, ⟨hmethod, rfl⟩, _, _, ⟨-, rfl⟩, _, _,
    ⟨-, rfl⟩, -, rfl⟩ := h
  exact ⟨_, _, .code hauthorizes hclient hmethod htarget, rfl⟩

/-- The three ways a token request returns. -/
theorem exact_of_run_token (h : (token P authorization kw).run s = (.ok reply, s')) :
    (∃ client code, RedeemsCode P s authorization kw client code ∧
      s'.rows = redeemedRows P s client code ∧
      reply = tokenResponse client (rawValue P s.drawn) (.str code.val.scope)
        (some (rawValue P (s.drawn + 1)))) ∨
    (∃ client refresh, Refreshes P s authorization kw client refresh ∧
      s'.rows = ⟨s.nextId, redeemedToken P s client refresh.val s.drawn .access
        client.val.accessTokenLifetime⟩ :: s.rows ∧
      reply = tokenResponse client (rawValue P s.drawn) (.str refresh.val.scope) none) ∨
    ∃ client, ActsAlone P s authorization kw client ∧
      s'.rows = ⟨s.nextId, newToken P s.drawn s.now client.id none .access
        (clientCredentialsScope client kw) client.val.accessTokenLifetime none none⟩ :: s.rows ∧
      reply = tokenResponse client (rawValue P s.drawn) (clientCredentialsScope client kw) none := by
  unfold token at h
  simp only [Prog.run_bind_ok, Prog.run_require_ok, Prog.run_ofOption_ok, Prog.run_getContext,
    Prod.mk.injEq, Except.ok.injEq] at h
  obtain ⟨_, _, ⟨rfl, rfl⟩, grant, _, ⟨hgrant, rfl⟩, _, _, ⟨htruthy, rfl⟩, client, _,
    ⟨hclient, rfl⟩, _, _, ⟨hallows, rfl⟩, h⟩ := h
  cases grant with
  | clientCredentials =>
    simp only [tokenClientCredentials, Prog.run_bind_ok, Prog.run_require_ok,
      Prog.run_ofExcept_ok, run_issue_ok, Prog.run_pure_ok, beq_iff_eq] at h
    obtain ⟨_, _, ⟨hconf, rfl⟩, ok, _, ⟨hok, rfl⟩, _, _, ⟨rfl, rfl⟩, _, _, ⟨rfl, rfl⟩, rfl, rfl⟩ := h
    exact Or.inr (Or.inr ⟨client, ⟨hgrant, htruthy, hclient, hallows, hconf, hok⟩, rfl, rfl⟩)
  | authorizationCode =>
    simp only [tokenAuthorizationCode, Prog.run_bind_ok, Prog.run_require_ok, Prog.run_getRows,
      Prog.run_getNow, Prog.run_ofExcept_ok, Prog.run_ofOption_ok, Prog.run_writeRow,
      run_issue_ok, run_checkClientSecret_ok, Prog.run_pure_ok, Prod.mk.injEq,
      Except.ok.injEq] at h
    obtain ⟨_, _, ⟨hsecret, rfl⟩, _, _, ⟨-, rfl⟩, _, _, ⟨rfl, rfl⟩, _, _, ⟨rfl, rfl⟩, found, _,
      ⟨hfound, rfl⟩, code, _, ⟨rfl, rfl⟩, pkce, _, ⟨hpkce, rfl⟩, _, _, ⟨rfl, rfl⟩, _, _,
      ⟨-, rfl⟩, _, _, ⟨rfl, rfl⟩, _, _, ⟨rfl, rfl⟩, rfl, rfl⟩ := h
    exact Or.inl ⟨client, code,
      ⟨hgrant, ⟨htruthy, hclient, hsecret⟩, hallows, hfound, hpkce⟩, rfl, rfl⟩
  | refreshToken =>
    simp only [tokenRefreshToken, Prog.run_bind_ok, Prog.run_require_ok, Prog.run_getRows,
      Prog.run_getNow, Prog.run_ofExcept_ok, Prog.run_ofOption_ok, run_issue_ok,
      run_checkClientSecret_ok, Prog.run_pure_ok, Prod.mk.injEq, Except.ok.injEq] at h
    obtain ⟨_, _, ⟨hsecret, rfl⟩, _, _, ⟨-, rfl⟩, _, _, ⟨rfl, rfl⟩, _, _, ⟨rfl, rfl⟩, found, _,
      ⟨hfound, rfl⟩, refresh, _, ⟨rfl, rfl⟩, _, _, ⟨rfl, rfl⟩, rfl, rfl⟩ := h
    exact Or.inr (Or.inl ⟨client, refresh,
      ⟨hgrant, ⟨htruthy, hclient, hsecret⟩, hallows, hfound⟩, rfl, rfl⟩)

theorem run_of_actsAlone {client : Row Client} (h : ActsAlone P s authorization kw client) :
    ∃ reply s', (token P authorization kw).run s = (.ok reply, s') := by
  obtain ⟨hgrant, htruthy, hfound, hallows, hconf, hsecret⟩ := h
  have hallows' : client.val.allowsGrant GrantType.clientCredentials.name = true := hallows
  unfold token
  simp [Prog.run_bind, hgrant, htruthy, hfound, hallows', tokenClientCredentials, hconf, hsecret,
    issue]

/-- The token requests that succeed are those of the three grants. -/
theorem token_ok_iff : (∃ reply s', (token P authorization kw).run s = (.ok reply, s')) ↔
    (∃ client code, RedeemsCode P s authorization kw client code) ∨
    (∃ client refresh, Refreshes P s authorization kw client refresh) ∨
    ∃ client, ActsAlone P s authorization kw client := by
  constructor
  · rintro ⟨reply, s', hrun⟩
    rcases exact_of_run_token hrun with ⟨client, code, h, -⟩ | ⟨client, refresh, h, -⟩ |
      ⟨client, h, -⟩
    · exact Or.inl ⟨client, code, h⟩
    · exact Or.inr (Or.inl ⟨client, refresh, h⟩)
    · exact Or.inr (Or.inr ⟨client, h⟩)
  · rintro (⟨client, code, h⟩ | ⟨client, refresh, h⟩ | ⟨client, h⟩)
    · exact run_of_redeemsCode h
    · exact run_of_refreshes h
    · exact run_of_actsAlone h

/-- What a request presents fixes its client and the row it names. -/
theorem RedeemsCode.unique {client client' : Row Client} {code code' : Row Token}
    (h : RedeemsCode P s authorization kw client code)
    (h' : RedeemsCode P s authorization kw client' code') : client = client' ∧ code = code' := by
  obtain rfl := Option.some.inj (h.sender.found.symm.trans h'.sender.found)
  exact ⟨rfl, Option.some.inj (Except.ok.inj (h.found.symm.trans h'.found))⟩

theorem Refreshes.unique {client client' : Row Client} {refresh refresh' : Row Token}
    (h : Refreshes P s authorization kw client refresh)
    (h' : Refreshes P s authorization kw client' refresh') :
    client = client' ∧ refresh = refresh' := by
  obtain rfl := Option.some.inj (h.sender.found.symm.trans h'.sender.found)
  exact ⟨rfl, Option.some.inj (Except.ok.inj (h.found.symm.trans h'.found))⟩

theorem Revokes.unique {client client' : Row Client} {record record' : Row Token}
    (h : Revokes P s authorization kw client record)
    (h' : Revokes P s authorization kw client' record') : record = record' := by
  obtain rfl := Option.some.inj (h.sender.found.symm.trans h'.sender.found)
  exact Option.some.inj (Except.ok.inj (h.found.symm.trans h'.found))

theorem ActsAlone.unique {client client' : Row Client} (h : ActsAlone P s authorization kw client)
    (h' : ActsAlone P s authorization kw client') : client = client' :=
  Option.some.inj (h.found.symm.trans h'.found)

/-- A request that returns commits the rows of its run. -/
theorem next_of_run {q : Request} (h : (handle P q).run s = (.ok reply, s')) :
    (server P).answer s (.request q) = some (.ok reply) ∧
      ((server P).next s (.request q)).rows = s'.rows := by
  have htransact := Prog.transact_ok_iff.mpr h
  exact ⟨congrArg some (congrArg Prod.snd htransact),
    congrArg Db.rows (congrArg Prod.fst htransact)⟩

theorem next_rows_of_error {q : Request} {e : Exn} {s' : State}
    (h : (handle P q).run s = (.error e, s')) :
    ((server P).next s (.request q)).rows = s.rows := by
  refine Prog.transact_rows_of_error (e := e) ?_
  unfold Prog.transact
  rw [h]

/-! ## What a step does to a row -/

theorem held_cons {new : Row Token} {rows : List (Row Token)} (hnew : new.val.revoked = false) :
    Held r (new :: rows) ↔ r = new ∨ Held r rows := by
  unfold Held
  rw [List.mem_cons, or_and_right]
  refine or_congr_left (and_iff_left_of_imp ?_)
  rintro rfl
  exact hnew

theorem held_revoked {id : Nat} {rows : List (Row Token)} :
    Held r ((RowOp.upd id TokenWrite.revoked).apply rows) ↔ Held r rows ∧ r.id ≠ id := by
  unfold Held
  rw [RowOp.apply_upd, List.mem_map]
  constructor
  · rintro ⟨⟨old, hold, rfl⟩, hrev⟩
    split at hrev
    · cases hrev
    · next hid =>
      rw [if_neg hid]
      exact ⟨⟨hold, hrev⟩, hid⟩
  · rintro ⟨⟨hr, hrev⟩, hid⟩
    exact ⟨⟨r, hr, if_neg hid⟩, hrev⟩

theorem held_revokedAll {ids : List Nat} {rows : List (Row Token)} :
    Held r (applyOps (ids.map fun id => .upd id TokenWrite.revoked) rows) ↔
      Held r rows ∧ r.id ∉ ids := by
  induction ids generalizing rows with
  | nil => simp
  | cons id ids ih =>
    rw [List.map_cons, applyOps_cons, ih, held_revoked, List.mem_cons, not_or, and_assoc]

theorem held_filter {p : Row Token → Bool} {rows : List (Row Token)} :
    Held r (rows.filter p) ↔ Held r rows ∧ p r = true := by
  unfold Held
  rw [List.mem_filter, and_right_comm]

/-- A step that yields a token is answered so, and its row is held from then on. -/
theorem Yields.spec {a : Step} (h : Yields P s a reply raw r) :
    (server P).answer s a = some (.ok reply) ∧ Held r ((server P).next s a).rows := by
  cases h with
  | code h hclient hmethod htarget =>
    obtain ⟨reply, s', hrun⟩ := run_of_authorizesClient h _
    obtain ⟨hans, hrows⟩ := next_of_run (q := .authorize _ _) hrun
    obtain ⟨raw, r, hyields, hrows'⟩ := exact_of_run_authorize hrun
    rw [hans, hrows, hrows']
    cases hyields with | code _ hclient' hmethod' htarget' =>
    obtain rfl := Option.some.inj (hclient.symm.trans hclient')
    obtain rfl := Option.some.inj (hmethod.symm.trans hmethod')
    obtain rfl := Except.ok.inj (htarget.symm.trans htarget')
    exact ⟨rfl, (held_cons rfl).mpr (Or.inl rfl)⟩
  | redeemedAccess h | redeemedRefresh h =>
    obtain ⟨reply, s', hrun⟩ := run_of_redeemsCode h
    obtain ⟨hans, hrows⟩ := next_of_run (q := .token _ _) hrun
    rw [hans, hrows]
    rcases exact_of_run_token hrun with ⟨client, code, h', hrows', rfl⟩ | ⟨_, _, h', -⟩ |
      ⟨_, h', -⟩
    · obtain ⟨rfl, rfl⟩ := h.unique h'
      rw [hrows', redeemedRows, held_cons rfl, held_cons rfl]
      exact ⟨rfl, by simp⟩
    · exact absurd (h.grant.symm.trans h'.grant) (by decide)
    · exact absurd (h.grant.symm.trans h'.grant) (by decide)
  | refreshed h =>
    obtain ⟨reply, s', hrun⟩ := run_of_refreshes h
    obtain ⟨hans, hrows⟩ := next_of_run (q := .token _ _) hrun
    rw [hans, hrows]
    rcases exact_of_run_token hrun with ⟨_, _, h', -⟩ | ⟨client, refresh, h', hrows', rfl⟩ |
      ⟨_, h', -⟩
    · exact absurd (h.grant.symm.trans h'.grant) (by decide)
    · obtain ⟨rfl, rfl⟩ := h.unique h'
      rw [hrows', held_cons rfl]
      exact ⟨rfl, Or.inl rfl⟩
    · exact absurd (h.grant.symm.trans h'.grant) (by decide)
  | alone h =>
    obtain ⟨reply, s', hrun⟩ := run_of_actsAlone h
    obtain ⟨hans, hrows⟩ := next_of_run (q := .token _ _) hrun
    rw [hans, hrows]
    rcases exact_of_run_token hrun with ⟨_, _, h', -⟩ | ⟨_, _, h', -⟩ | ⟨client, h', hrows', rfl⟩
    · exact absurd (h.grant.symm.trans h'.grant) (by decide)
    · exact absurd (h.grant.symm.trans h'.grant) (by decide)
    · obtain rfl := h.unique h'
      rw [hrows', held_cons rfl]
      exact ⟨rfl, Or.inl rfl⟩

/-- The requests of the three grants, row by row. -/
theorem held_token
    (h : Held r ((server P).next s (.request (.token authorization kw))).rows) :
    (∃ reply raw, Yields P s (.request (.token authorization kw)) reply raw r) ∨
      Held r s.rows ∧ ¬ Ends P s r (.request (.token authorization kw)) := by
  rcases hrun : (handle P (.token authorization kw)).run s with ⟨_ | reply, s'⟩
  · rw [next_rows_of_error hrun] at h
    refine Or.inr ⟨h, fun hends => ?_⟩
    cases hends with | redeemed hcode =>
    obtain ⟨reply, s'', hrun'⟩ := run_of_redeemsCode hcode
    cases hrun.symm.trans hrun'
  · rw [(next_of_run hrun).2] at h
    rcases exact_of_run_token hrun with ⟨client, code, hcode, hrows, rfl⟩ |
      ⟨client, refresh, hrefresh, hrows, rfl⟩ | ⟨client, halone, hrows, rfl⟩
    · rw [hrows, redeemedRows, held_cons rfl, held_cons rfl, held_revoked] at h
      rcases h with rfl | rfl | ⟨hheld, hid⟩
      · exact Or.inl ⟨_, _, .redeemedRefresh hcode⟩
      · exact Or.inl ⟨_, _, .redeemedAccess hcode⟩
      · refine Or.inr ⟨hheld, fun hends => ?_⟩
        cases hends with | redeemed hcode' =>
        exact hid (congrArg Row.id (hcode'.unique hcode).2)
    · rw [hrows, held_cons rfl] at h
      rcases h with rfl | hheld
      · exact Or.inl ⟨_, _, .refreshed hrefresh⟩
      · refine Or.inr ⟨hheld, fun hends => ?_⟩
        cases hends with | redeemed hcode =>
        exact absurd (hcode.grant.symm.trans hrefresh.grant) (by decide)
    · rw [hrows, held_cons rfl] at h
      rcases h with rfl | hheld
      · exact Or.inl ⟨_, _, .alone halone⟩
      · refine Or.inr ⟨hheld, fun hends => ?_⟩
        cases hends with | redeemed hcode =>
        exact absurd (hcode.grant.symm.trans halone.grant) (by decide)

/-- A held row that no redemption of the request names stays held. -/
theorem held_token_of_not_ends (hsep : Separated P s.drawn s.nextId s.rows) (h : Held r s.rows)
    (hnot : ¬ Ends P s r (.request (.token authorization kw))) :
    Held r ((server P).next s (.request (.token authorization kw))).rows := by
  rcases hrun : (handle P (.token authorization kw)).run s with ⟨_ | reply, s'⟩
  · rw [next_rows_of_error hrun]
    exact h
  · rw [(next_of_run hrun).2]
    rcases exact_of_run_token hrun with ⟨client, code, hcode, hrows, -⟩ |
      ⟨client, refresh, -, hrows, -⟩ | ⟨client, -, hrows, -⟩
    · rw [hrows, redeemedRows, held_cons rfl, held_cons rfl, held_revoked]
      refine Or.inr (Or.inr ⟨h, fun hid => hnot ?_⟩)
      obtain rfl := hsep.eq_of_id h.1 (lookup_some hcode.found).1 hid
      exact .redeemed hcode
    · rw [hrows, held_cons rfl]
      exact Or.inr h
    · rw [hrows, held_cons rfl]
      exact Or.inr h

theorem held_authorize :
    Held r ((server P).next s (.request (.authorize uid kw))).rows ↔
      (∃ reply raw, Yields P s (.request (.authorize uid kw)) reply raw r) ∨ Held r s.rows := by
  constructor
  · rcases hrun : (handle P (.authorize uid kw)).run s with ⟨_ | reply, s'⟩
    · rw [next_rows_of_error hrun]
      exact Or.inr
    · obtain ⟨raw, new, hyields, hrows⟩ := exact_of_run_authorize hrun
      have hnew : new.val.revoked = false := by cases hyields; rfl
      rw [(next_of_run hrun).2, hrows, held_cons hnew]
      rintro (rfl | h)
      · exact Or.inl ⟨reply, raw, hyields⟩
      · exact Or.inr h
  · rintro (⟨reply, raw, h⟩ | h)
    · exact h.spec.2
    · rcases hrun : (handle P (.authorize uid kw)).run s with ⟨_ | reply, s'⟩
      · rw [next_rows_of_error hrun]
        exact h
      · obtain ⟨raw, new, hyields, hrows⟩ := exact_of_run_authorize hrun
        have hnew : new.val.revoked = false := by cases hyields; rfl
        rw [(next_of_run hrun).2, hrows, held_cons hnew]
        exact Or.inr h

theorem held_revoke (hsep : Separated P s.drawn s.nextId s.rows) :
    Held r ((server P).next s (.request (.revoke authorization kw))).rows ↔
      Held r s.rows ∧ ¬ Ends P s r (.request (.revoke authorization kw)) := by
  by_cases hrevokes : ∃ client record, Revokes P s authorization kw client record
  · obtain ⟨client, record, hrecord⟩ := hrevokes
    obtain ⟨reply, s', hrun, hrows⟩ := run_of_revokes hrecord
    rw [(next_of_run (q := .revoke authorization kw) hrun).2, hrows, held_revoked]
    refine and_congr_right fun hheld => not_congr ⟨fun hid => ?_, fun hends => ?_⟩
    · obtain rfl := hsep.eq_of_id hheld.1 (lookupForRevoke_some hrecord.found).1 hid
      exact .revoked hrecord
    · cases hends with | revoked hr =>
      exact congrArg Row.id (hr.unique hrecord)
  · have hnot : ¬ Ends P s r (.request (.revoke authorization kw)) := by
      intro hends
      cases hends with | revoked hr =>
      exact hrevokes ⟨_, _, hr⟩
    rw [and_iff_left hnot]
    rcases hrun : (handle P (.revoke authorization kw)).run s with ⟨_ | reply, s'⟩
    · rw [next_rows_of_error hrun]
    · rw [(next_of_run hrun).2]
      rcases of_run_revoke hrun with hrows | ⟨client, record, hrecord, -⟩
      · rw [hrows]
      · exact absurd ⟨client, record, hrecord⟩ hrevokes

theorem held_actionRevoke {u : User} {ids : List Nat} :
    Held r ((server P).next s (.request (.actionRevoke u ids))).rows ↔
      Held r s.rows ∧ ¬ Ends P s r (.request (.actionRevoke u ids)) := by
  show Held r ((handle P (.actionRevoke u ids)).transact s).1.rows ↔ _
  rw [actionRevoke_transact]
  cases haccess : revokeAccess u ids s.rows with
  | error e =>
    refine (and_iff_left ?_).symm
    intro hends
    cases hends with | actionRevoked h =>
    cases haccess.symm.trans h
  | ok _ =>
    dsimp only
    rw [held_revokedAll]
    refine and_congr_right fun _ => not_congr ⟨fun hid => .actionRevoked haccess hid, fun hends => ?_⟩
    cases hends with | actionRevoked _ hid => exact hid

theorem held_collected (hsep : Separated P s.drawn s.nextId s.rows) :
    Held r ((server P).next s (.request .gcExpiredOauthToken)).rows ↔
      Held r s.rows ∧ ¬ Ends P s r (.request .gcExpiredOauthToken) := by
  rw [collected_next]
  dsimp only
  rw [held_filter, Bool.not_eq_true', ← Bool.not_eq_true, List.contains_iff_mem]
  refine and_congr_right fun hheld => not_congr ⟨fun hid => ?_, fun hends => ?_⟩
  · obtain ⟨expired, hexpired, hid⟩ := List.mem_map.mp hid
    obtain ⟨hin, hdate⟩ := List.mem_filter.mp hexpired
    obtain rfl := hsep.eq_of_id hin hheld.1 hid
    exact .collected (of_decide_eq_true hdate)
  · cases hends with | collected hdate =>
    exact List.mem_map.mpr ⟨r, List.mem_filter.mpr ⟨hheld.1, decide_eq_true hdate⟩, rfl⟩

/-- A row is held after a step exactly if the step yielded it, or it was held before and the
step did not end it. -/
theorem held_next (a : Step) (hsep : Separated P s.drawn s.nextId s.rows) :
    Held r ((server P).next s a).rows ↔
      (∃ reply raw, Yields P s a reply raw r) ∨ Held r s.rows ∧ ¬ Ends P s r a := by
  have hyields : (∃ reply raw, Yields P s a reply raw r) → Held r ((server P).next s a).rows :=
    fun ⟨_, _, h⟩ => h.spec.2
  cases a with
  | tick now =>
    refine ⟨fun h => Or.inr ⟨h, fun hends => by cases hends⟩, ?_⟩
    rintro (h | ⟨h, -⟩)
    · exact hyields h
    · exact h
  | editClients clients =>
    have hkept : Held r ((server P).next s (.editClients clients)).rows ↔
        Held r s.rows ∧ ¬ Ends P s r (.editClients clients) := by
      refine held_filter.trans (and_congr_right fun _ => ?_)
      rw [List.any_eq_true]
      constructor
      · rintro ⟨c, hc, hid⟩ hends
        cases hends with | clientDeleted hnone => exact hnone c hc (beq_iff_eq.mp hid)
      · intro hnot
        by_contra hnone
        push Not at hnone
        exact hnot (.clientDeleted fun c hc hid => hnone c hc (beq_iff_eq.mpr hid))
    refine ⟨fun h => Or.inr (hkept.mp h), ?_⟩
    rintro (h | h)
    · exact hyields h
    · exact hkept.mpr h
  | request q =>
    cases q with
    | authorize uid kw =>
      rw [held_authorize]
      refine or_congr_right (and_iff_left fun hends => ?_).symm
      cases hends
    | token authorization kw =>
      refine ⟨held_token, ?_⟩
      rintro (h | ⟨h, hnot⟩)
      · exact hyields h
      · exact held_token_of_not_ends hsep h hnot
    | revoke authorization kw =>
      rw [held_revoke hsep, or_iff_right]
      rintro ⟨_, _, h⟩
      cases h
    | actionRevoke u ids =>
      rw [held_actionRevoke, or_iff_right]
      rintro ⟨_, _, h⟩
      cases h
    | gcExpiredOauthToken =>
      rw [held_collected hsep, or_iff_right]
      rintro ⟨_, _, h⟩
      cases h

/-! ## Runs -/

theorem Yields.isRawValue {a : Step} (h : Yields P s a reply raw r) : IsRawValue P raw r.val := by
  cases h with
  | code _ _ _ _ => exact ⟨_, rfl, made_newToken ..⟩
  | redeemedAccess _ => exact ⟨_, rfl, made_newToken ..⟩
  | redeemedRefresh _ => exact ⟨_, rfl, made_newToken ..⟩
  | refreshed _ => exact ⟨_, rfl, made_newToken ..⟩
  | alone _ => exact ⟨_, rfl, made_newToken ..⟩

theorem IsRawValue.unique (hP : P.Exact) {raw raw' : String} {t : Token}
    (h : IsRawValue P raw t) (h' : IsRawValue P raw' t) : raw = raw' := by
  obtain ⟨i, rfl, hi⟩ := h
  obtain ⟨j, rfl, hj⟩ := h'
  rw [hi.inj hP hj]

/-- After any run the rows in force are those that a step of it yielded and no later one ended. -/
theorem held_run (hP : P.Exact) (clients : Clients) (now : Int) (as : List Step)
    (r : Row Token) :
    Held r ((server P).exec (initial clients now) as).rows ↔
      (server P).Since (fun s a => ∃ reply raw, Yields P s a reply raw r)
        (fun s a => Ends P s r a) (initial clients now) as := by
  refine (server P).since_iff (I := fun s => Separated P s.drawn s.nextId s.rows)
    (Q := fun s => Held r s.rows) (fun s a h => separated_next hP a h) (fun s a h => held_next a h)
    (separated_run hP clients now []) ?_ as
  rintro ⟨h, -⟩
  cases h

/-- A lookup of a raw value finds a row exactly if the value is current for it. -/
theorem lookup_run_iff (hP : P.Exact) (clients : Clients) (now : Int) (as : List Step)
    {tokenType : TokenType} {client : Option Nat} :
    lookup P ((server P).exec (initial clients now) as).rows
        ((server P).exec (initial clients now) as).now (.str raw) tokenType client = .ok (some r) ↔
      Current P clients now as raw tokenType client r := by
  have hsep := separated_run hP clients now as
  constructor
  · intro hfind
    obtain ⟨hr, hlive, s, hs, hv⟩ := lookup_some hfind
    cases hs
    obtain ⟨-, i, -, hm⟩ := hsep.known r hr
    have hraw : IsRawValue P raw r.val := ⟨i, hm.of_verify hP hv, hm⟩
    refine ⟨?_, hlive.tokenType, hlive.unexpired, hlive.client⟩
    refine ((held_run hP clients now as r).mp ⟨hr, hlive.unrevoked⟩).mono _ ?_
    rintro s a ⟨reply, raw', hyields⟩
    obtain rfl := hyields.isRawValue.unique hP hraw
    exact ⟨reply, hyields.spec.1, hyields⟩
  · intro h
    obtain ⟨before, a, after, he, ⟨reply, -, hyields⟩, hkept⟩ := h.since
    obtain ⟨i, rfl, hm⟩ := hyields.isRawValue
    have hheld := (held_run hP clients now as r).mpr
      ⟨before, a, after, he, ⟨_, _, hyields⟩, hkept⟩
    refine findByRaw_of_made hP hsep hheld.1 ?_ hm
    simp only [Bool.and_eq_true, beq_iff_eq, Bool.not_eq_true', decide_eq_true_eq,
      Option.all_eq_true]
    exact ⟨⟨⟨h.tokenType, hheld.2⟩, h.unexpired⟩, h.client⟩

/-- **The life of an access token.**  A credential authenticates exactly while it is current, as
the user and client that its row was issued to. -/
theorem access_token_lifecycle (P : Platform) (hP : P.Exact) (publicUser : Nat) (clients : Clients)
    (now : Int) (as : List Step) (raw : String) (result : RestAuthResult) :
    restAuthVerify P publicUser ((server P).exec (initial clients now) as).ctx
        ((server P).exec (initial clients now) as).rows
        ((server P).exec (initial clients now) as).now raw = .ok result ↔
      ∃ r, Current P clients now as raw .access none r ∧
        result = authResult publicUser ((server P).exec (initial clients now) as).ctx r.val := by
  rw [restAuthVerify_ok]
  exact exists_congr fun r => and_congr_left fun _ => lookup_run_iff hP clients now as

/-- User 7 authorizes the client, which redeems the code. -/
def redeemedRun : List Step := [authorizeWeb "read", redeemWeb 0]

theorem access_token_lifecycle_redeemedRun :
    ∃ r, Current Platform.sample [webClient] 0 redeemedRun (rawValue Platform.sample 1) .access
      none r ∧ r.val.userId = some 7 := by
  obtain ⟨r, hr, hresult⟩ := (access_token_lifecycle Platform.sample Platform.sample_exact 3
    [webClient] 0 redeemedRun (rawValue Platform.sample 1)
    ⟨7, "oauth2", [], ["read"], some 3600⟩).mp (by rfl)
  have huid : 7 = r.val.userId.getD 3 := congrArg RestAuthResult.uid hresult
  refine ⟨r, hr, ?_⟩
  cases howner : r.val.userId with
  | none => rw [howner] at huid; cases huid
  | some uid => rw [howner] at huid; exact congrArg some huid.symm

/-- A request presents, as this client, the raw value of a row that is current. -/
structure PresentsCurrent (P : Platform) (clients : Clients) (now : Int) (as : List Step)
    (authorization : Option String) (kw : Kw) (parameter : String) (grant : GrantType)
    (tokenType : TokenType) (client : Row Client) (r : Row Token) : Prop where
  grants : grantType kw = some grant
  sender : From P ((server P).exec (initial clients now) as) authorization kw client
  allows : client.val.allowsGrant grant.name = true
  current : ∃ raw, kw.get parameter = .str raw ∧
    Current P clients now as raw tokenType (some client.id) r

theorem lookup_kw_iff (hP : P.Exact) (clients : Clients) (now : Int) (as : List Step)
    {presented : Json} {tokenType : TokenType} {client : Option Nat} :
    lookup P ((server P).exec (initial clients now) as).rows
        ((server P).exec (initial clients now) as).now presented tokenType client =
          .ok (some r) ↔
      ∃ raw, presented = .str raw ∧ Current P clients now as raw tokenType client r := by
  constructor
  · intro hfind
    obtain ⟨-, -, raw, rfl, -⟩ := lookup_some hfind
    exact ⟨raw, rfl, (lookup_run_iff hP clients now as).mp hfind⟩
  · rintro ⟨raw, rfl, h⟩
    exact (lookup_run_iff hP clients now as).mpr h

/-- **The life of a code and of a refresh token.**  After any run, a token request succeeds exactly
if it presents a current code with a verifier that answers it, or a current refresh token, of the
client it is from, or that client acts on its own behalf. -/
theorem token_request_lifecycle (P : Platform) (hP : P.Exact) (clients : Clients) (now : Int)
    (as : List Step) (authorization : Option String) (kw : Kw) :
    (∃ reply, (server P).answer ((server P).exec (initial clients now) as)
        (.request (.token authorization kw)) = some (.ok reply)) ↔
      (∃ client code, PresentsCurrent P clients now as authorization kw "code" .authorizationCode
          .code client code ∧ code.val.checkPkce (kw.get "code_verifier") = .ok true) ∨
      (∃ client refresh, PresentsCurrent P clients now as authorization kw "refresh_token"
          .refreshToken .refresh client refresh) ∨
      ∃ client, ActsAlone P ((server P).exec (initial clients now) as) authorization kw client := by
  have hanswer : (∃ reply, (server P).answer ((server P).exec (initial clients now) as)
        (.request (.token authorization kw)) = some (.ok reply)) ↔
      ∃ reply s', (token P authorization kw).run ((server P).exec (initial clients now) as) =
        (.ok reply, s') := by
    refine exists_congr fun reply => ⟨fun h => ?_, fun ⟨s', hrun⟩ => (next_of_run (q := .token _ _) hrun).1⟩
    exact ⟨_, Prog.transact_ok_iff.mp (Prod.ext rfl (Option.some.inj h))⟩
  rw [hanswer, token_ok_iff]
  refine or_congr (exists₂_congr fun client code => ?_)
    (or_congr_left (exists₂_congr fun client refresh => ?_))
  · constructor
    · rintro ⟨hgrant, hsender, hallows, hfound, hpkce⟩
      exact ⟨⟨hgrant, hsender, hallows, (lookup_kw_iff hP clients now as).mp hfound⟩, hpkce⟩
    · rintro ⟨⟨hgrant, hsender, hallows, hcurrent⟩, hpkce⟩
      exact ⟨hgrant, hsender, hallows, (lookup_kw_iff hP clients now as).mpr hcurrent, hpkce⟩
  · constructor
    · rintro ⟨hgrant, hsender, hallows, hfound⟩
      exact ⟨hgrant, hsender, hallows, (lookup_kw_iff hP clients now as).mp hfound⟩
    · rintro ⟨hgrant, hsender, hallows, hcurrent⟩
      exact ⟨hgrant, hsender, hallows, (lookup_kw_iff hP clients now as).mpr hcurrent⟩

/-- The client refreshes with the token it was issued. -/
def refreshWebKw (i : Nat) : Kw :=
  [("client_id", .str "web"), ("client_secret", .str "soc_secret"),
   ("grant_type", .str "refresh_token"), ("refresh_token", .str (rawValue Platform.sample i))]

theorem token_request_lifecycle_redeemedRun :
    ∃ client refresh, PresentsCurrent Platform.sample [webClient] 0 redeemedRun none
      (refreshWebKw 2) "refresh_token" .refreshToken .refresh client refresh := by
  have hsucceeds : ∃ reply, (server Platform.sample).answer
      ((server Platform.sample).exec (initial [webClient] 0) redeemedRun)
      (.request (.token none (refreshWebKw 2))) = some (.ok reply) := ⟨_, rfl⟩
  rcases (token_request_lifecycle Platform.sample Platform.sample_exact [webClient] 0 redeemedRun
    none (refreshWebKw 2)).mp hsucceeds with ⟨_, _, h, -⟩ | h | ⟨_, h⟩
  · exact absurd h.grants (by decide)
  · exact h
  · exact absurd h.grant (by decide)

end SsiRest.Oauth
