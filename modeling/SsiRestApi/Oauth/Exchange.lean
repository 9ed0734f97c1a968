import SsiRestApi.Oauth.Owned
import SsiRestApi.Oauth.Pkce
import SsiRestApi.Oauth.Secrets

/-!
# The exchange of a code

A token request of the authorization_code grant against any table of issued rows.

    it succeeds ↔ an active client presents the raw value of a live code of its own
      and a verifier that answers it, and then spends that code for one access and one
      refresh token; otherwise nothing changes
        ↔ it does not present such a code under the plain method with a verifier that
          is not ASCII                                        (exchangeExact_iff)
-/

namespace SsiRest.Oauth

open Py Tx

/-- The row was issued with this raw value. -/
structure IssuedWith (P : Platform) (raw : String) (t : Token) : Prop where
  nonempty : raw ≠ ""
  index : t.tokenIndex = slice raw tokenIndexSize
  hash : ∃ salt, t.tokenHash = P.crypt.hash salt raw

/-- A table of issued rows: ids are unique and below `n`, and no two rows share a raw value. -/
structure IssuedTable (P : Platform) (n : Nat) (rows : List (Row Token)) : Prop where
  numbered : Numbered n rows
  issued : ∀ r ∈ rows, ∃ raw, IssuedWith P raw r.val
  apart : ∀ r ∈ rows, ∀ r' ∈ rows, ∀ raw, IssuedWith P raw r.val → IssuedWith P raw r'.val →
    r = r'

/-- `_client_id_uniq`. -/
def ClientIdUniq (clients : Clients) : Prop :=
  ∀ c ∈ clients, ∀ c' ∈ clients, c.val.clientId = c'.val.clientId → c = c'

/-- The secret is text that verifies against the hash the client keeps. -/
def SecretVerifies (P : Platform) (client : Client) (clientSecret : Json) : Prop :=
  ∃ secret hash, clientSecret = .str secret ∧ secret ≠ "" ∧
    client.clientSecretHash = some hash ∧ hash ≠ "" ∧ P.crypt.verify secret hash = some true

/-- The request presents a code of a client, and all that is asked for with it. -/
structure Exchanges (P : Platform) (s : State) (authorization : Option String) (kw : Kw)
    (client : Row Client) (code : Row Token) : Prop where
  client_mem : client ∈ s.ctx
  active : client.val.active = true
  /-- An empty id names no client. -/
  named : (extractClientCredentials authorization kw).1 = .str client.val.clientId ∧
    client.val.clientId ≠ ""
  allows : client.val.allowsGrant "authorization_code" = true
  secret : client.val.clientType = .confidential →
    SecretVerifies P client.val (extractClientCredentials authorization kw).2
  code_mem : code ∈ s.rows
  raw : ∃ raw, kw.get "code" = .str raw ∧ IssuedWith P raw code.val
  live : Live s.now .code (some client.id) code.val
  verifier : ∃ verifier, kw.get "code_verifier" = .str verifier ∧ code.val.Answered verifier

/-- The row is a new token for the user, the scope and the client of a code. -/
structure TokenOf (P : Platform) (s : State) (client : Row Client) (code : Token)
    (tokenType : TokenType) (lifetime : Int) (r : Row Token) : Prop where
  fresh : ∀ old ∈ s.rows, old.id ≠ r.id
  tokenType : r.val.tokenType = tokenType
  userId : r.val.userId = code.userId
  scope : r.val.scope = code.scope
  clientId : r.val.clientId = client.id
  live : r.val.revoked = false
  expirationDate : r.val.expirationDate = s.now + lifetime

/-- The exchange is exact and atomic. -/
structure ExchangeExact (P : Platform) (s : State) (authorization : Option String) (kw : Kw) :
    Prop where
  succeeds : (∃ reply, ((token P authorization kw).transact s).2 = .ok reply) ↔
    ∃ client code, Exchanges P s authorization kw client code
  /-- Exactly the code is revoked, and exactly one access and one refresh token are added. -/
  effect : ∀ client code, Exchanges P s authorization kw client code → ∃ access refresh,
    TokenOf P s client code.val .access client.val.accessTokenLifetime access ∧
    TokenOf P s client code.val .refresh client.val.refreshTokenLifetime refresh ∧
    access.id ≠ refresh.id ∧
    ((token P authorization kw).transact s).1.rows = refresh :: access ::
      s.rows.map fun r => if r = code then ⟨r.id, { r.val with revoked := true }⟩ else r
  failure : ∀ e, ((token P authorization kw).transact s).2 = .error e →
    ((token P authorization kw).transact s).1.rows = s.rows

variable {P : Platform} {s : State} {authorization : Option String} {kw : Kw}
  {client client' : Row Client} {code code' : Row Token}

/-! ## Lookups in a table of issued rows -/

theorem IssuedWith.hashed {raw : String} {t : Token} (h : IssuedWith P raw t) :
    CryptContext.Hashed P.crypt (some t.tokenHash) (some raw) := by
  obtain ⟨salt, hsalt⟩ := h.hash
  exact ⟨salt, congrArg some hsalt⟩

/-- A text verifies against a row exactly if the row was issued with it. -/
theorem IssuedWith.verify_iff (hP : P.crypt.Exact) {raw raw' : String} {t : Token}
    (h : IssuedWith P raw t) : P.crypt.verify raw' t.tokenHash = some true ↔ raw' = raw := by
  obtain ⟨salt, hsalt⟩ := h.hash
  rw [hsalt, hP.verify_hash]
  simp

theorem IssuedTable.hashed {n : Nat} {rows : List (Row Token)} (h : IssuedTable P n rows)
    {r : Row Token} (hr : r ∈ rows) :
    ∃ raw?, CryptContext.Hashed P.crypt (some r.val.tokenHash) raw? := by
  obtain ⟨raw, hraw⟩ := h.issued r hr
  exact ⟨_, hraw.hashed⟩

/-- A lookup finds exactly the row that was issued with the text, if it meets the condition,
whatever other rows share its index. -/
theorem IssuedTable.findByRaw_iff (hP : P.crypt.Exact) {n : Nat} {rows : List (Row Token)}
    (h : IssuedTable P n rows) {raw : String} {cond : Token → Bool} {r : Row Token} :
    findByRaw P rows (.str raw) cond = .ok (some r) ↔
      r ∈ rows ∧ cond r.val = true ∧ IssuedWith P raw r.val := by
  constructor
  · intro hfind
    obtain ⟨hr, hcond, s, hs, hv⟩ := findByRaw_some hfind
    cases hs
    obtain ⟨raw', hraw'⟩ := h.issued r hr
    obtain rfl := (hraw'.verify_iff hP).mp hv
    exact ⟨hr, hcond, hraw'⟩
  · rintro ⟨hr, hcond, hraw⟩
    have hcandidate : r ∈ rows.filter fun r =>
        r.val.tokenIndex == slice raw tokenIndexSize && cond r.val :=
      List.mem_filter.mpr ⟨hr, by simp [hraw.index, hcond]⟩
    obtain ⟨b, hb⟩ : ∃ b, P.crypt.firstMatch hashError (fun r : Row Token => some r.val.tokenHash)
        raw (rows.filter fun r => r.val.tokenIndex == slice raw tokenIndexSize && cond r.val) =
          .ok (some b) :=
      hP.firstMatch_of_mem (fun a ha => h.hashed (List.mem_filter.mp ha).1) hcandidate hraw.hashed
    have hfind : findByRaw P rows (.str raw) cond = .ok (some b) := by
      simpa [findByRaw, hraw.nonempty] using hb
    -- the row found verifies the same text, so it is the same row
    obtain ⟨hbr, -, s, hs, hv⟩ := findByRaw_some hfind
    cases hs
    obtain ⟨raw', hraw'⟩ := h.issued b hbr
    obtain rfl := (hraw'.verify_iff hP).mp hv
    rw [hfind, h.apart b hbr r hr _ hraw' hraw]

theorem IssuedTable.lookup_iff (hP : P.crypt.Exact) {n : Nat} {rows : List (Row Token)}
    (h : IssuedTable P n rows) {now : Int} {raw : Json} {tokenType : TokenType}
    {id : Option Nat} {r : Row Token} :
    lookup P rows now raw tokenType id = .ok (some r) ↔
      r ∈ rows ∧ Live now tokenType id r.val ∧ ∃ s, raw = .str s ∧ IssuedWith P s r.val := by
  constructor
  · intro hfind
    obtain ⟨hr, hlive, s, rfl, -⟩ := lookup_some hfind
    exact ⟨hr, hlive, s, rfl, ((h.findByRaw_iff hP).mp hfind).2.2⟩
  · rintro ⟨hr, hlive, s, rfl, hs⟩
    refine (h.findByRaw_iff hP).mpr ⟨hr, ?_, hs⟩
    simp only [Bool.and_eq_true, beq_iff_eq, Bool.not_eq_true', decide_eq_true_eq,
      Option.all_eq_true]
    exact ⟨⟨⟨hlive.tokenType, hlive.unrevoked⟩, hlive.unexpired⟩, hlive.client⟩

/-- In every reachable state the rows are issued. -/
theorem issuedTable_run (hP : P.Exact) (clients : Clients) (now : Int) (as : List Step) :
    IssuedTable P ((server P).exec (initial clients now) as).nextId
      ((server P).exec (initial clients now) as).rows := by
  have h := separated_run hP clients now as
  have hissued : ∀ {i : Nat} {t : Token}, Made P i t → IssuedWith P (rawValue P i) t :=
    fun hm => ⟨rawValue_ne P _, hm.index, _, hm.hash⟩
  refine ⟨⟨h.apart.imp fun hrr => hrr.1, fun r hr => (h.known r hr).1⟩, fun r hr => ?_,
    fun r hr r' hr' raw hraw hraw' => ?_⟩
  · obtain ⟨-, i, -, hm⟩ := h.known r hr
    exact ⟨_, hissued hm⟩
  · obtain ⟨-, i, -, hm⟩ := h.known r hr
    obtain ⟨-, j, -, hm'⟩ := h.known r' hr'
    -- one text verifies against both, so both were made of it
    have hi := (hraw.verify_iff hP.crypt).mp (((hissued hm).verify_iff hP.crypt).mpr rfl)
    have hj := (hraw'.verify_iff hP.crypt).mp (((hissued hm').verify_iff hP.crypt).mpr rfl)
    obtain rfl := rawValue_inj hP (hi.trans hj.symm)
    exact h.eq_of_made hr hr' hm hm'

/-! ## Clients -/

theorem ClientIdUniq.findClient_iff {clients : Clients} (h : ClientIdUniq clients)
    {clientId : Json} : findClient clients clientId = some client ↔
      client ∈ clients ∧ clientId = .str client.val.clientId ∧ client.val.active = true := by
  refine ⟨findClient_some, ?_⟩
  rintro ⟨hmem, rfl, hactive⟩
  obtain ⟨found, hfound⟩ : ∃ found, findClient clients (.str client.val.clientId) = some found :=
    Option.isSome_iff_exists.mp (List.find?_isSome.mpr ⟨client, hmem, by simp [hactive]⟩)
  obtain ⟨hmem', hid, -⟩ := findClient_some hfound
  rw [hfound, h client hmem found hmem' (Json.str.inj hid)]

theorem checkClientSecret_true_iff {c : Client} {clientSecret : Json} :
    c.checkClientSecret P clientSecret = .ok true ↔
      c.clientType = .confidential ∧ SecretVerifies P c clientSecret := by
  constructor
  · intro h
    obtain ⟨htype, secret, hash, rfl, hhash, hv⟩ := Client.checkClientSecret_true h
    refine ⟨htype, secret, hash, rfl, ?_, hhash, ?_, hv⟩
    · rintro rfl
      simp [Client.checkClientSecret, hhash] at h
    · rintro rfl
      simp [Client.checkClientSecret, hhash] at h
  · rintro ⟨htype, secret, hash, rfl, hne, hhash, hhne, hv⟩
    simp [Client.checkClientSecret, hhash, htype, hhne, hne, hv]

/-! ## One exchange -/

/-- What a redemption checks is what the exchange asks for, and an ASCII verifier. -/
theorem redeemsCode_iff (hP : P.crypt.Exact) (hclients : ClientIdUniq s.ctx)
    (htable : IssuedTable P s.nextId s.rows) (hgrant : grantType kw = some .authorizationCode) :
    RedeemsCode P s authorization kw client code ↔
      Exchanges P s authorization kw client code ∧
        ∃ verifier, kw.get "code_verifier" = .str verifier ∧ isAscii verifier = true := by
  constructor
  · intro h
    obtain ⟨hmem, hid, hactive⟩ := hclients.findClient_iff.mp h.sender.found
    obtain ⟨hcode, hlive, hraw⟩ := (htable.lookup_iff hP).mp h.found
    obtain ⟨verifier, hverifier, hanswered, hascii⟩ := checkPkce_true_iff.mp h.pkce
    have hne : client.val.clientId ≠ "" := by
      have htruthy := h.sender.truthy
      rw [hid] at htruthy
      simpa using htruthy
    exact ⟨⟨hmem, hactive, ⟨hid, hne⟩, h.allows,
      fun htype => (checkClientSecret_true_iff.mp (h.sender.secret htype)).2, hcode, hraw, hlive,
      verifier, hverifier, hanswered⟩, verifier, hverifier, hascii⟩
  · rintro ⟨h, verifier, hverifier, hascii⟩
    obtain ⟨verifier', hverifier', hanswered⟩ := h.verifier
    obtain rfl := Json.str.inj (hverifier.symm.trans hverifier')
    have htruthy : (extractClientCredentials authorization kw).1.truthy = true := by
      rw [h.named.1]
      simpa using h.named.2
    exact ⟨hgrant,
      ⟨htruthy, hclients.findClient_iff.mpr ⟨h.client_mem, h.named.1, h.active⟩,
        fun htype => checkClientSecret_true_iff.mpr ⟨htype, h.secret htype⟩⟩, h.allows,
      (htable.lookup_iff hP).mpr ⟨h.code_mem, h.live, h.raw⟩,
      checkPkce_true_iff.mpr ⟨verifier, hverifier, hanswered, hascii⟩⟩

/-- A request presents one client and one code. -/
theorem Exchanges.unique (hclients : ClientIdUniq s.ctx) (htable : IssuedTable P s.nextId s.rows)
    (h : Exchanges P s authorization kw client code)
    (h' : Exchanges P s authorization kw client' code') : client = client' ∧ code = code' := by
  obtain ⟨raw, hraw, hissued⟩ := h.raw
  obtain ⟨raw', hraw', hissued'⟩ := h'.raw
  obtain rfl := Json.str.inj (hraw.symm.trans hraw')
  exact ⟨hclients client h.client_mem client' h'.client_mem
      (Json.str.inj (h.named.1.symm.trans h'.named.1)),
    htable.apart code h.code_mem code' h'.code_mem raw hissued hissued'⟩

/-- The request succeeds exactly if it redeems a code. -/
theorem token_succeeds_iff (hgrant : grantType kw = some .authorizationCode) :
    (∃ reply, ((token P authorization kw).transact s).2 = .ok reply) ↔
      ∃ client code, RedeemsCode P s authorization kw client code := by
  constructor
  · rintro ⟨reply, hreply⟩
    rcases of_run_token (Prog.transact_ok_iff.mp (Prod.ext rfl hreply)) with
      ⟨client, code, h, -⟩ | ⟨client, refresh, r, h, -⟩ | ⟨h, -⟩
    · exact ⟨client, code, h⟩
    · exact absurd (hgrant.symm.trans h.grant) (by decide)
    · exact absurd (hgrant.symm.trans h) (by decide)
  · rintro ⟨client, code, h⟩
    obtain ⟨reply, s', hrun⟩ := run_of_redeemsCode h
    exact ⟨reply, congrArg Prod.snd (Prog.transact_ok_iff.mpr hrun)⟩

theorem rows_of_redeemsCode (h : RedeemsCode P s authorization kw client code) :
    ((token P authorization kw).transact s).1.rows = redeemedRows P s client code := by
  obtain ⟨reply, s', hrun⟩ := run_of_redeemsCode h
  rw [Prog.transact_ok_iff.mpr hrun]
  rcases of_run_token hrun with ⟨client', code', h', hrows⟩ | ⟨client', refresh, r, h', -⟩ |
    ⟨hgrant, -⟩
  · obtain rfl := Option.some.inj (h.sender.found.symm.trans h'.sender.found)
    obtain rfl := Option.some.inj (Except.ok.inj (h.found.symm.trans h'.found))
    exact hrows
  · exact absurd (h.grant.symm.trans h'.grant) (by decide)
  · exact absurd (h.grant.symm.trans hgrant) (by decide)

theorem tokenOf_redeemedToken {n id : Nat} (hnum : Numbered n s.rows) (hid : n ≤ id) (i : Nat)
    {tokenType : TokenType} {lifetime : Int} :
    TokenOf P s client code.val tokenType lifetime
      ⟨id, redeemedToken P s client code.val i tokenType lifetime⟩ where
  fresh old hold := by
    have := hnum.known old hold
    dsimp only
    omega
  tokenType := rfl
  userId := rfl
  scope := by
    by_cases hscope : code.val.scope = ""
    · simp [redeemedToken, newToken, Json.orElse, hscope, Platform.charColumn]
    · simp [redeemedToken, newToken, Json.orElse, hscope, Platform.charColumn]
  clientId := rfl
  live := rfl
  expirationDate := rfl

/-- Revoking by id revokes one row. -/
theorem apply_revoked_eq {n : Nat} {rows : List (Row Token)} (hnum : Numbered n rows)
    (hcode : code ∈ rows) :
    (RowOp.upd code.id TokenWrite.revoked).apply rows =
      rows.map fun r => if r = code then ⟨r.id, { r.val with revoked := true }⟩ else r := by
  rw [RowOp.apply_upd]
  refine List.map_congr_left fun r hr => ?_
  by_cases h : r = code
  · rw [if_pos h, if_pos (congrArg Row.id h), update_token]
  · rw [if_neg h, if_neg fun hid => h (hnum.eq_of_id hr hcode hid)]

/-- The exchange is exact, unless what is presented answers a plain challenge with a text that
is not ASCII: comparing the two raises. -/
theorem exchangeExact_iff (hP : P.crypt.Exact) (hclients : ClientIdUniq s.ctx)
    (htable : IssuedTable P s.nextId s.rows) (hgrant : grantType kw = some .authorizationCode) :
    ExchangeExact P s authorization kw ↔
      ¬ ∃ client code verifier, Exchanges P s authorization kw client code ∧
        code.val.codeChallengeMethod = some .plain ∧
        kw.get "code_verifier" = .str verifier ∧ isAscii verifier = false := by
  have hredeems : ∀ client code, RedeemsCode P s authorization kw client code ↔
      Exchanges P s authorization kw client code ∧
        ∃ verifier, kw.get "code_verifier" = .str verifier ∧ isAscii verifier = true :=
    fun client code => redeemsCode_iff hP hclients htable hgrant
  constructor
  · rintro hexact ⟨client, code, verifier, h, -, hverifier, hascii⟩
    obtain ⟨client', code', h'⟩ :=
      (token_succeeds_iff hgrant).mp (hexact.succeeds.mpr ⟨client, code, h⟩)
    obtain ⟨-, verifier', hverifier', hascii'⟩ := (hredeems client' code').mp h'
    obtain rfl := Json.str.inj (hverifier.symm.trans hverifier')
    rw [hascii] at hascii'
    cases hascii'
  · intro hnot
    have hall : ∀ client code, Exchanges P s authorization kw client code →
        RedeemsCode P s authorization kw client code := by
      intro client code h
      obtain ⟨verifier, hverifier, hanswered⟩ := h.verifier
      refine (hredeems client code).mpr ⟨h, verifier, hverifier, ?_⟩
      by_contra hascii
      have hascii : isAscii verifier = false := by simpa using hascii
      exact hnot ⟨client, code, verifier, h, hanswered.plain hascii, hverifier, hascii⟩
    refine ⟨?_, fun client code h => ?_, fun e => Prog.transact_rows_of_error⟩
    · rw [token_succeeds_iff hgrant]
      exact exists₂_congr fun client code =>
        ⟨fun h => ((hredeems client code).mp h).1, hall client code⟩
    · have hnum := htable.numbered
      refine ⟨_, _, tokenOf_redeemedToken hnum (Nat.le_refl s.nextId) s.drawn,
        tokenOf_redeemedToken hnum (Nat.le_succ s.nextId) (s.drawn + 1),
        (Nat.lt_succ_self s.nextId).ne, ?_⟩
      rw [rows_of_redeemsCode (hall client code h), redeemedRows, apply_revoked_eq hnum h.code_mem]

/-! ## A plain challenge -/

/-- User 7 has authorized the client with a plain challenge. -/
def authorizedPlain (challenge : String) : State :=
  (server Platform.sample).exec (initial [webClient] 0)
    [.request (.authorize 7
      [("client_id", .str "web"), ("redirect_uri", .str "https://app.example/callback"),
       ("response_type", .str "code"), ("code_challenge", .str challenge),
       ("code_challenge_method", .str "plain"), ("scope", .str "read")])]

/-- The client redeems the code with a verifier. -/
def redeemPlain (verifier : String) : Kw :=
  [("client_id", .str "web"), ("client_secret", .str "soc_secret"),
   ("grant_type", .str "authorization_code"), ("code", .str (rawValue Platform.sample 0)),
   ("code_verifier", .str verifier)]

/-- The code row. -/
def plainCode (challenge : String) : Row Token :=
  ⟨0, newToken Platform.sample 0 0 1 (some 7) .code (.str "read") authCodeLifetimeSeconds
    (some (.str challenge)) (some .plain)⟩

theorem clientIdUniq_web : ClientIdUniq [webClient] := by
  intro c hc c' hc' _
  rw [List.mem_singleton.mp hc, List.mem_singleton.mp hc']

theorem exchangeExact_plain :
    ExchangeExact Platform.sample (authorizedPlain "verifier") none (redeemPlain "verifier") ↔
      ¬ ∃ client code verifier, Exchanges Platform.sample (authorizedPlain "verifier") none
          (redeemPlain "verifier") client code ∧
        code.val.codeChallengeMethod = some .plain ∧
        (redeemPlain "verifier").get "code_verifier" = .str verifier ∧
        isAscii verifier = false :=
  exchangeExact_iff Platform.sample_exact.crypt clientIdUniq_web
    (issuedTable_run Platform.sample_exact [webClient] 0 _) (by rfl)

/-- The code was authorized with a challenge that is not ASCII; the client presents it. -/
theorem not_exchangeExact :
    ¬ ExchangeExact Platform.sample (authorizedPlain "\u00e9") none (redeemPlain "\u00e9") := by
  intro h
  have hexchanges : Exchanges Platform.sample (authorizedPlain "\u00e9") none
      (redeemPlain "\u00e9") webClient (plainCode "\u00e9") :=
    { client_mem := List.mem_singleton.mpr rfl
      active := rfl
      named := ⟨rfl, by decide⟩
      allows := by rfl
      secret := fun _ => ⟨"soc_secret", _, rfl, by decide, rfl, by decide, by rfl⟩
      code_mem := List.mem_singleton.mpr rfl
      raw := ⟨_, rfl, rawValue_ne _ _, rfl, 0, rfl⟩
      live := ⟨rfl, rfl, by decide, fun id hid => by cases hid; rfl⟩
      verifier := ⟨"\u00e9", rfl, by decide, "\u00e9", rfl, rfl⟩ }
  obtain ⟨reply, hreply⟩ := h.succeeds.mpr ⟨_, _, hexchanges⟩
  have hraises : ((token Platform.sample none (redeemPlain "\u00e9")).transact
      (authorizedPlain "\u00e9")).2 = .error (.python "TypeError") := by rfl
  rw [hraises] at hreply
  cases hreply

end SsiRest.Oauth
