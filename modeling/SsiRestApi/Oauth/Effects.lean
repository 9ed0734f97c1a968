import SsiRestApi.Oauth.Server

/-!
# What a request can do to the token table

One inversion lemma for the whole server.  `Effect` lists, for every request
that returns, what it was answered and which rows it created, updated and
deleted, with every check the request passed on the way.

    handle returns reply with log → Effect … reply log, and every row it created
    has the hash of a text it drew                           (handle_effect)
    after a request the table is as before, or an effect's log was applied to it
                                                             (request_effect)
    a row of the table was there before, or its request is of three kinds
                                                             (row_origin)
-/

namespace SsiRest.Oauth

open Py Tx

/-- The checks of an authorize call. -/
structure AuthorizeAccepts (clients : Clients) (kw : Kw) (client : Row Client)
    (method : ChallengeMethod) : Prop where
  required : (kw.get "client_id").truthy = true ∧ (kw.get "redirect_uri").truthy = true
  found : findClient clients (kw.get "client_id") = some client
  redirectUri : client.val.hasRedirectUri (kw.get "redirect_uri") = true
  responseType : (kw.get "response_type").isStr "code" = true
  grant : client.val.allowsGrant "authorization_code" = true
  codeChallenge : (kw.get "code_challenge").truthy = true
  method : challengeMethod ((kw.get "code_challenge_method").orElse (.str "S256")) = some method

/-- The client a token or revoke request authenticates as. -/
structure AuthenticatedAs (P : Platform) (clients : Clients) (authorization : Option String)
    (kw : Kw) (client : Row Client) : Prop where
  truthy : (extractClientCredentials authorization kw).1.truthy = true
  found : findClient clients (extractClientCredentials authorization kw).1 = some client
  secret : client.val.clientType = .confidential →
    client.val.checkClientSecret P (extractClientCredentials authorization kw).2 = .ok true

/-- An access or refresh token of a client for the resource owner of a row. -/
def derivedToken (P : Platform) (i : Nat) (now : Int) (client : Row Client) (t : Token)
    (tokenType : TokenType) (lifetime : Int) : Token :=
  newToken P i now client.id t.userId tokenType (.str t.scope) lifetime none none

/-- The outcomes of the requests that return, on the snapshot `(clients, rows)` with every
random number from `d` and row id from `n` on unused; those below `e` and `f` are used up
at the end. -/
inductive Effect (P : Platform) (clients : Clients) (rows : List (Row Token)) (d n e f : Nat) :
    Request → Reply → List (RowOp Token TokenWrite) → Prop
  | authorize {uid : Nat} {kw : Kw} {client : Row Client} {target : String}
      {method : ChallengeMethod} {i id : Nat} {now : Int}
      (hchecks : AuthorizeAccepts clients kw client method)
      (htarget : P.appendQuery (kw.get "redirect_uri")
        [("code", .str (rawValue P i)), ("state", kw.get "state")] = .ok target)
      (hi : d ≤ i) (he : i < e) (hid : n ≤ id) (hf : id < f) :
      Effect P clients rows d n e f (.authorize uid kw) (.redirect target)
        [.ins id (newToken P i now client.id (some uid) .code (kw.get "scope")
          authCodeLifetimeSeconds (some (kw.get "code_challenge")) (some method))]
  | redeem {authorization : Option String} {kw : Kw} {client : Row Client} {code : Row Token}
      {i j id id' : Nat} {now now' now'' : Int}
      (hgrant : grantType kw = some .authorizationCode)
      (hclient : AuthenticatedAs P clients authorization kw client)
      (hallows : client.val.allowsGrant "authorization_code" = true)
      (hcode : lookup P rows now (kw.get "code") .code (some client.id) = .ok (some code))
      (hpkce : code.val.checkPkce (kw.get "code_verifier") = .ok true)
      (hi : d ≤ i) (hj : i < j) (he : j < e) (hid : n ≤ id) (hid' : id < id') (hf : id' < f) :
      Effect P clients rows d n e f (.token authorization kw)
        (tokenResponse client (rawValue P i) (.str code.val.scope) (some (rawValue P j)))
        [.upd code.id .revoked,
         .ins id (derivedToken P i now' client code.val .access client.val.accessTokenLifetime),
         .ins id' (derivedToken P j now'' client code.val .refresh
           client.val.refreshTokenLifetime)]
  | clientCredentials {authorization : Option String} {kw : Kw} {client : Row Client}
      {i id : Nat} {now : Int}
      (hgrant : grantType kw = some .clientCredentials)
      (hclient : AuthenticatedAs P clients authorization kw client)
      (hallows : client.val.allowsGrant "client_credentials" = true)
      (hconf : client.val.clientType = .confidential)
      (hi : d ≤ i) (he : i < e) (hid : n ≤ id) (hf : id < f) :
      Effect P clients rows d n e f (.token authorization kw)
        (tokenResponse client (rawValue P i) (clientCredentialsScope client kw) none)
        [.ins id (newToken P i now client.id none .access (clientCredentialsScope client kw)
          client.val.accessTokenLifetime none none)]
  | refresh {authorization : Option String} {kw : Kw} {client : Row Client}
      {refresh : Row Token} {i id : Nat} {now now' : Int}
      (hgrant : grantType kw = some .refreshToken)
      (hclient : AuthenticatedAs P clients authorization kw client)
      (hallows : client.val.allowsGrant "refresh_token" = true)
      (hrefresh : lookup P rows now (kw.get "refresh_token") .refresh (some client.id) =
        .ok (some refresh))
      (hi : d ≤ i) (he : i < e) (hid : n ≤ id) (hf : id < f) :
      Effect P clients rows d n e f (.token authorization kw)
        (tokenResponse client (rawValue P i) (.str refresh.val.scope) none)
        [.ins id (derivedToken P i now' client refresh.val .access
          client.val.accessTokenLifetime)]
  | revoke {authorization : Option String} {kw : Kw} {client : Row Client}
      {record : Option (Row Token)}
      (hclient : AuthenticatedAs P clients authorization kw client)
      (hrecord : lookupForRevoke P rows (kw.get "token") client.id = .ok record) :
      Effect P clients rows d n e f (.revoke authorization kw) .empty
        ((record.toList.map (·.id)).map fun id => .upd id .revoked)
  | actionRevoke {u : User} {ids : List Nat} :
      Effect P clients rows d n e f (.actionRevoke u ids) .empty
        (ids.map fun id => .upd id .revoked)
  | gcExpiredOauthToken {now : Int} :
      Effect P clients rows d n e f .gcExpiredOauthToken .empty
        (((rows.filter fun r => r.val.expirationDate < now).map (·.id)).map .del)

/-- Every row a transaction created has the hash of a text it drew. -/
def Drawn (P : Platform) (m : Mark Token TokenWrite) : Prop :=
  ∀ id val, RowOp.ins id val ∈ m.log → ∃ i ∈ m.draws, val.tokenHash = P.crypt.hash i (rawValue P i)

variable {P : Platform} {clients : Clients} {rows : List (Row Token)}

/-! ## The shared steps -/

theorem drawn_of_not_isIns {m : Mark Token TokenWrite} (h : ∀ op ∈ m.log, op.isIns = false) :
    Drawn P m := fun _ _ hv => absurd (h _ hv) (by simp)

theorem drawn_start (d n : Nat) : Drawn P (.start d n) := fun _ _ hv => by cases hv

/-- A token is issued from a text of its own. -/
theorem Drawn.issue {m : Mark Token TokenWrite} (h : Drawn P m) {i id : Nat} {now : Int}
    {client : Nat} {user : Option Nat} {tokenType : TokenType} {scope : Json} {lifetime : Int}
    {challenge : Option Json} {method : Option ChallengeMethod} :
    Drawn P ⟨i + 1, id + 1, m.draws ++ [i], m.log ++ [.ins id
      (newToken P i now client user tokenType scope lifetime challenge method)]⟩ := by
  intro id' val hv
  rcases List.mem_append.mp hv with hv | hv
  · obtain ⟨i', hi', hhash⟩ := h id' val hv
    exact ⟨i', List.mem_append_left _ hi', hhash⟩
  · cases List.mem_singleton.mp hv
    exact ⟨i, List.mem_append_right _ List.mem_cons_self, rfl⟩

theorem wlp_issue {client : Row Client} {user : Option Nat} {tokenType : TokenType}
    {scope : Json} {lifetime : Int} {challenge : Option Json}
    {method : Option ChallengeMethod} {m : Mark Token TokenWrite}
    {Q : String → Mark Token TokenWrite → Prop} :
    Prog.wlp clients rows
        (issue P client user tokenType scope lifetime challenge method) m Q ↔
      ∀ i, m.drawn ≤ i → ∀ now, ∀ id, m.nextId ≤ id →
        Q (rawValue P i) ⟨i + 1, id + 1, m.draws ++ [i], m.log ++ [.ins id
          (newToken P i now client.id user tokenType scope lifetime challenge method)]⟩ := by
  simp [issue]

theorem wlp_checkClientSecretIfConfidential {client : Row Client} {clientSecret : Json}
    {m : Mark Token TokenWrite} {Q : Unit → Mark Token TokenWrite → Prop} :
    Prog.wlp clients rows (checkClientSecretIfConfidential P client clientSecret) m Q ↔
      ((client.val.clientType = .confidential →
        client.val.checkClientSecret P clientSecret = .ok true) → Q () m) := by
  unfold checkClientSecretIfConfidential
  by_cases hc : client.val.clientType = .confidential
  · simp only [hc, ne_eq, not_true_eq_false, if_false, Prog.wlp_bind, Prog.wlp_ofExcept,
      Prog.wlp_require, forall_const]
    exact ⟨fun h h' => h true h' rfl, fun h b hb hbt => h (by rw [hb, hbt])⟩
  · simp [hc]

/-! ## Each endpoint -/

theorem authorize_effect (uid : Nat) (kw : Kw) (d n : Nat) :
    Prog.wlp clients rows (authorize P uid kw) (.start d n) fun reply m =>
      Effect P clients rows d n m.drawn m.nextId (.authorize uid kw) reply m.log ∧ Drawn P m := by
  unfold authorize
  simp only [Prog.wlp_bind, Prog.wlp_getContext, Prog.wlp_require, Prog.wlp_ofOption, wlp_issue,
    Prog.wlp_ofExcept, Prog.wlp_pure, Mark.start_log, Mark.start_draws, List.nil_append,
    Bool.and_eq_true]
  intro hrequired client hclient huri hresponse hgrant hchallenge method hmethod i hi now id hid
    target htarget
  exact ⟨.authorize ⟨hrequired, hclient, huri, hresponse, hgrant, hchallenge, hmethod⟩ htarget hi
    (Nat.lt_succ_self i) hid (Nat.lt_succ_self id), (drawn_start d n).issue⟩

theorem token_effect (authorization : Option String) (kw : Kw) (d n : Nat) :
    Prog.wlp clients rows (token P authorization kw) (.start d n) fun reply m =>
      Effect P clients rows d n m.drawn m.nextId (.token authorization kw) reply m.log ∧ Drawn P m := by
  unfold token
  simp only [Prog.wlp_bind, Prog.wlp_getContext, Prog.wlp_require, Prog.wlp_ofOption]
  intro grant hgrant htruthy client hclient hallows
  cases grant with
  | clientCredentials =>
    simp only [tokenClientCredentials, Prog.wlp_bind, Prog.wlp_require, Prog.wlp_ofExcept,
      wlp_issue, Prog.wlp_pure, Mark.start_log, Mark.start_draws, List.nil_append, beq_iff_eq]
    intro hconf ok hok hsecret i hi now id hid
    exact ⟨.clientCredentials hgrant ⟨htruthy, hclient, fun _ => by rw [hok, hsecret]⟩ hallows
      hconf hi (Nat.lt_succ_self i) hid (Nat.lt_succ_self id), (drawn_start d n).issue⟩
  | authorizationCode =>
    simp only [tokenAuthorizationCode, Prog.wlp_bind, Prog.wlp_require, Prog.wlp_ofExcept,
      Prog.wlp_ofOption, Prog.wlp_getRows, Prog.wlp_getNow, Prog.wlp_writeRow,
      wlp_checkClientSecretIfConfidential, wlp_issue, Prog.wlp_pure, Mark.start_log,
      Mark.start_draws, List.nil_append, applyOps_nil]
    intro hsecret _ now found hfound code hcode pkce hpkce htrue i hi now' id hid j hj now''
      id' hid'
    subst hcode htrue
    have hdrawn : Drawn P ⟨d, n, [], [.upd code.id .revoked]⟩ := drawn_of_not_isIns (by simp)
    exact ⟨.redeem hgrant ⟨htruthy, hclient, hsecret⟩ hallows hfound hpkce hi hj
      (Nat.lt_succ_self j) hid hid' (Nat.lt_succ_self id'), hdrawn.issue.issue⟩
  | refreshToken =>
    simp only [tokenRefreshToken, Prog.wlp_bind, Prog.wlp_require, Prog.wlp_ofExcept,
      Prog.wlp_ofOption, Prog.wlp_getRows, Prog.wlp_getNow,
      wlp_checkClientSecretIfConfidential, wlp_issue, Prog.wlp_pure, Mark.start_log,
      Mark.start_draws, List.nil_append, applyOps_nil]
    intro hsecret _ now found hfound refresh hrefresh i hi now' id hid
    subst hrefresh
    exact ⟨.refresh hgrant ⟨htruthy, hclient, hsecret⟩ hallows hfound hi (Nat.lt_succ_self i) hid
      (Nat.lt_succ_self id), (drawn_start d n).issue⟩

theorem revoke_effect (authorization : Option String) (kw : Kw) (d n : Nat) :
    Prog.wlp clients rows (revoke P authorization kw) (.start d n) fun reply m =>
      Effect P clients rows d n m.drawn m.nextId (.revoke authorization kw) reply m.log ∧ Drawn P m := by
  unfold revoke
  simp only [Prog.wlp_bind, Prog.wlp_getContext, Prog.wlp_require, Prog.wlp_ofOption,
    Prog.wlp_getRows, Prog.wlp_ofExcept, Prog.wlp_writeAll, Prog.wlp_pure,
    wlp_checkClientSecretIfConfidential, Mark.start_log, applyOps_nil, List.nil_append]
  intro _ htruthy client hclient hsecret record hrecord
  exact ⟨.revoke ⟨htruthy, hclient, hsecret⟩ hrecord, drawn_of_not_isIns (by simp)⟩

/-- **Inversion.**  A request that returns had one of the listed effects. -/
theorem handle_effect (q : Request) (d n : Nat) :
    Prog.wlp clients rows (handle P q) (.start d n) fun reply m =>
      Effect P clients rows d n m.drawn m.nextId q reply m.log ∧ Drawn P m := by
  cases q with
  | authorize uid kw => exact authorize_effect uid kw d n
  | token authorization kw => exact token_effect authorization kw d n
  | revoke authorization kw => exact revoke_effect authorization kw d n
  | actionRevoke u ids =>
    simp only [handle, actionRevoke, Prog.wlp_bind, Orm.wlp_write, Prog.wlp_pure,
      Mark.start_log, List.nil_append]
    exact fun _ => ⟨.actionRevoke, drawn_of_not_isIns (by simp)⟩
  | gcExpiredOauthToken =>
    simp only [handle, gcExpiredOauthToken, Prog.wlp_bind, Prog.wlp_getRows, Prog.wlp_getNow,
      Prog.wlp_unlinkAll, Prog.wlp_pure, Mark.start_log, List.nil_append, applyOps_nil]
    refine fun _ => ⟨.gcExpiredOauthToken, drawn_of_not_isIns fun op hop => ?_⟩
    obtain ⟨id, -, rfl⟩ := List.mem_map.mp hop
    rfl

/-- A request that raises leaves the tokens alone; one that returns had an effect, and its
log was applied. -/
theorem request_effect (P : Platform) (s : State) (q : Request) :
    (∃ err, (server P).answer s (.request q) = some (.error err) ∧
      ((server P).next s (.request q)).rows = s.rows) ∨
    ∃ reply log e f, (server P).answer s (.request q) = some (.ok reply) ∧
      Effect P s.ctx s.rows s.drawn s.nextId e f q reply log ∧
      e ≤ ((server P).next s (.request q)).drawn ∧
      f ≤ ((server P).next s (.request q)).nextId ∧
      ((server P).next s (.request q)).rows = applyOps log s.rows := by
  rcases Prog.transact_wlp (handle_effect (P := P) q s.drawn s.nextId) with
    ⟨err, he, hrows⟩ | ⟨reply, m, hok, ⟨heff, -⟩, hd, hn, hrows⟩
  · exact Or.inl ⟨err, congrArg some he, hrows⟩
  · exact Or.inr ⟨reply, m.log, m.drawn, m.nextId, congrArg some hok, heff, hd, hn, hrows⟩

/-- A step never gives a random number or a row id back. -/
theorem next_counters (P : Platform) (s : State) (a : Step) :
    s.drawn ≤ ((server P).next s a).drawn ∧ s.nextId ≤ ((server P).next s a).nextId := by
  cases a with
  | request q => exact (Prog.transact_frame (handle P q) s).2.2
  | tick now => exact ⟨Nat.le_refl _, Nat.le_refl _⟩
  | editClients clients => exact ⟨Nat.le_refl _, Nat.le_refl _⟩

/-! ## Where the rows of the table come from -/

/-- The only thing that happens to a row is that it is revoked. -/
def Evolves (t t' : Token) : Prop := t' = t ∨ t' = { t with revoked := true }

theorem Evolves.refl (t : Token) : Evolves t t := Or.inl rfl

theorem Evolves.update {t t' : Token} (w : TokenWrite) (h : Evolves t t') :
    Evolves t (Tx.update w t') := by
  rcases h with rfl | rfl
  · exact Or.inr rfl
  · exact Or.inr rfl

/-- The requests that create a row: authorize, the grants that pass on a row's owner and
scope, and client_credentials. -/
inductive Origin (P : Platform) (clients : Clients) (rows : List (Row Token)) (d e : Nat) :
    Request → Token → Prop
  | authorized {uid : Nat} {kw : Kw} {client : Row Client} {method : ChallengeMethod} {i : Nat}
      {now : Int} (hchecks : AuthorizeAccepts clients kw client method) (hi : d ≤ i) (he : i < e) :
      Origin P clients rows d e (.authorize uid kw)
        (newToken P i now client.id (some uid) .code (kw.get "scope") authCodeLifetimeSeconds
          (some (kw.get "code_challenge")) (some method))
  | derived {authorization : Option String} {kw : Kw} {client : Row Client} {source : Row Token}
      {tokenType : TokenType} {lifetime : Int} {i : Nat} {now : Int}
      (hclient : AuthenticatedAs P clients authorization kw client) (hsource : source ∈ rows)
      (howner : source.val.clientId = client.id) (hnotAccess : source.val.tokenType ≠ .access)
      (hnotCode : tokenType ≠ .code) (hi : d ≤ i) (he : i < e) :
      Origin P clients rows d e (.token authorization kw)
        (derivedToken P i now client source.val tokenType lifetime)
  | ownBehalf {authorization : Option String} {kw : Kw} {client : Row Client} {i : Nat}
      {now : Int}
      (hgrant : grantType kw = some .clientCredentials)
      (hclient : AuthenticatedAs P clients authorization kw client)
      (hallows : client.val.allowsGrant "client_credentials" = true)
      (hconf : client.val.clientType = .confidential) (hi : d ≤ i) (he : i < e) :
      Origin P clients rows d e (.token authorization kw)
        (newToken P i now client.id none .access (clientCredentialsScope client kw)
          client.val.accessTokenLifetime none none)

theorem Origin.mono {d e e' : Nat} {q : Request} {t : Token} (h : Origin P clients rows d e q t)
    (hle : e ≤ e') : Origin P clients rows d e' q t := by
  cases h with
  | authorized hchecks hi he => exact .authorized hchecks hi (Nat.lt_of_lt_of_le he hle)
  | derived hclient hsource howner hnotAccess hnotCode hi he =>
    exact .derived hclient hsource howner hnotAccess hnotCode hi (Nat.lt_of_lt_of_le he hle)
  | ownBehalf hgrant hclient hallows hconf hi he =>
    exact .ownBehalf hgrant hclient hallows hconf hi (Nat.lt_of_lt_of_le he hle)

theorem Effect.origin {d n e f : Nat} {q : Request} {reply : Reply}
    {log : List (RowOp Token TokenWrite)} (h : Effect P clients rows d n e f q reply log)
    {id : Nat} {val : Token} (hv : RowOp.ins id val ∈ log) :
    Origin P clients rows d e q val ∧ n ≤ id ∧ id < f := by
  cases h with
  | authorize hchecks htarget hi he hid hf =>
    cases List.mem_singleton.mp hv
    exact ⟨.authorized hchecks hi he, hid, hf⟩
  | redeem hgrant hclient hallows hcode hpkce hi hj he hid hid' hf =>
    obtain ⟨hmem, hlive, -⟩ := lookup_some hcode
    have howner := hlive.client _ rfl
    have hnot := hlive.ne_access (by decide)
    simp only [List.mem_cons, List.not_mem_nil, or_false, reduceCtorEq, false_or,
      RowOp.ins.injEq] at hv
    rcases hv with ⟨rfl, rfl⟩ | ⟨rfl, rfl⟩
    · exact ⟨.derived hclient hmem howner hnot (by decide) hi (Nat.lt_trans hj he), hid,
        Nat.lt_trans hid' hf⟩
    · exact ⟨.derived hclient hmem howner hnot (by decide) (Nat.le_trans hi (Nat.le_of_lt hj)) he,
        Nat.le_trans hid (Nat.le_of_lt hid'), hf⟩
  | clientCredentials hgrant hclient hallows hconf hi he hid hf =>
    cases List.mem_singleton.mp hv
    exact ⟨.ownBehalf hgrant hclient hallows hconf hi he, hid, hf⟩
  | refresh hgrant hclient hallows hrefresh hi he hid hf =>
    obtain ⟨hmem, hlive, -⟩ := lookup_some hrefresh
    have hnot := hlive.ne_access (by decide)
    cases List.mem_singleton.mp hv
    exact ⟨.derived hclient hmem (hlive.client _ rfl) hnot (by decide) hi he, hid, hf⟩
  | revoke hclient hrecord => simp at hv
  | actionRevoke => simp at hv
  | gcExpiredOauthToken => simp at hv

/-- A row after a step was there before, or the step's request created it. -/
theorem row_origin {s : State} {a : Step} {r : Row Token} (hr : r ∈ ((server P).next s a).rows) :
    (∃ r' ∈ s.rows, r'.id = r.id ∧ Evolves r'.val r.val) ∨
    ∃ q val reply, a = .request q ∧ (server P).answer s a = some (.ok reply) ∧
      Origin P s.ctx s.rows s.drawn ((server P).next s a).drawn q val ∧ Evolves val r.val ∧
      s.nextId ≤ r.id ∧ r.id < ((server P).next s a).nextId := by
  cases a with
  | tick now => exact Or.inl ⟨r, hr, rfl, Evolves.refl _⟩
  | editClients clients => exact Or.inl ⟨r, (List.mem_filter.mp hr).1, rfl, Evolves.refl _⟩
  | request q =>
    rcases request_effect P s q with ⟨_, -, hrows⟩ | ⟨reply, log, e, f, hans, heff, he, hf, hrows⟩
    · rw [hrows] at hr
      exact Or.inl ⟨r, hr, rfl, Evolves.refl _⟩
    · rw [hrows] at hr
      rcases mem_applyOps_rel Evolves.refl (fun u _ _ h => h.update u) hr with
        hold | ⟨val, hv, hev⟩
      · exact Or.inl hold
      · obtain ⟨horigin, hn, hlt⟩ := heff.origin hv
        exact Or.inr ⟨q, val, reply, rfl, hans, horigin.mono he, hev, hn,
          Nat.lt_of_lt_of_le hlt hf⟩

end SsiRest.Oauth
