import SsiRestApi.Oauth.Effects

/-!
# Where tokens come from

Every token of a user goes back to an authorize call in that user's own session,
and every token of a confidential client to a request that presented its secret,
through any chain of redemptions and refreshes.

    step:  a new row's user, client and scope are authorize's or its source row's
    run:   hence every row's are those of some authorize call   (token_provenance)
-/

namespace SsiRest.Oauth

open Py Tx

/-- The request presents the client's current secret. -/
def PresentsSecret (P : Platform) (authorization : Option String) (kw : Kw) (client : Client) :
    Prop :=
  ∃ secret hash, extractClientCredentials authorization kw = (.str client.clientId, .str secret) ∧
    client.clientSecretHash = some hash ∧ P.crypt.verify secret hash = some true

/-- The step answers an authorize call made in the session of `user`, for the client row
`clientId`, a redirect_uri registered for it and a scope stored as `scope`. -/
def Authorizes (P : Platform) (user clientId : Nat) (scope : String) (s : State) (a : Step) :
    Prop :=
  ∃ kw client url target, a = .request (.authorize user kw) ∧
    (server P).answer s a = some (.ok (.redirect target)) ∧
    client ∈ s.ctx ∧ client.id = clientId ∧ kw.get "client_id" = .str client.val.clientId ∧
    url ∈ client.val.redirectUriIds ∧ kw.get "redirect_uri" = .str url ∧
    P.charColumn ((kw.get "scope").orElse (.str "")) = scope

/-- The step creates row `id`. -/
def Creates (P : Platform) (id : Nat) (s : State) (a : Step) : Prop :=
  (∀ r ∈ s.rows, r.id ≠ id) ∧ ∃ r ∈ ((server P).next s a).rows, r.id = id

/-- The step creates row `id` in a token request of the client row `clientId`, which presents
the client's secret if the client is confidential at that moment. -/
def Issues (P : Platform) (id clientId : Nat) (s : State) (a : Step) : Prop :=
  Creates P id s a ∧ ∃ authorization kw client, a = .request (.token authorization kw) ∧
    client ∈ s.ctx ∧ client.id = clientId ∧
    (client.val.clientType = .confidential → PresentsSecret P authorization kw client.val)

/-- The step creates row `id` in a client_credentials request of a confidential client. -/
def IssuesOnOwnBehalf (P : Platform) (id clientId : Nat) (s : State) (a : Step) : Prop :=
  Creates P id s a ∧ ∃ authorization kw client, a = .request (.token authorization kw) ∧
    kw.get "grant_type" = .str "client_credentials" ∧ client ∈ s.ctx ∧ client.id = clientId ∧
    client.val.clientType = .confidential ∧ PresentsSecret P authorization kw client.val

variable {P : Platform}

/-! ## One step -/

theorem AuthenticatedAs.mem {clients : Clients} {authorization : Option String} {kw : Kw}
    {client : Row Client} (h : AuthenticatedAs P clients authorization kw client) :
    client ∈ clients := (findClient_some h.found).1

theorem AuthenticatedAs.presents {clients : Clients} {authorization : Option String} {kw : Kw}
    {client : Row Client} (h : AuthenticatedAs P clients authorization kw client)
    (hc : client.val.clientType = .confidential) :
    PresentsSecret P authorization kw client.val := by
  obtain ⟨-, hid, -⟩ := findClient_some h.found
  obtain ⟨-, s, hash, hs, hhash, hv⟩ := Client.checkClientSecret_true (h.secret hc)
  exact ⟨s, hash, Prod.ext hid hs, hhash, hv⟩

theorem grantType_name {kw : Kw} {g : GrantType} (h : grantType kw = some g) :
    kw.get "grant_type" = .str g.name := by
  have h := List.find?_some h
  exact Json.eq_str_of_isStr h

/-- A scope copied from a row is stored unchanged. -/
@[simp] theorem charColumn_scope (P : Platform) (scope : String) :
    P.charColumn ((Json.str scope).orElse (.str "")) = scope := by
  unfold Json.orElse
  by_cases h : scope = ""
  · simp [h, Platform.charColumn]
  · simp [h, Platform.charColumn]

@[simp] theorem Evolves.fields {t t' : Token} (h : Evolves t t') :
    t'.userId = t.userId ∧ t'.clientId = t.clientId ∧ t'.scope = t.scope ∧
      t'.tokenType = t.tokenType := by
  rcases h with rfl | rfl <;> exact ⟨rfl, rfl, rfl, rfl⟩

theorem authorizes_of {s : State} {uid : Nat} {kw : Kw} {client : Row Client}
    {method : ChallengeMethod} {target : String}
    (hans : (server P).answer s (.request (.authorize uid kw)) = some (.ok (.redirect target)))
    (hchecks : AuthorizeAccepts s.ctx kw client method) :
    Authorizes P uid client.id (P.charColumn ((kw.get "scope").orElse (.str ""))) s
      (.request (.authorize uid kw)) := by
  obtain ⟨hmem, hid, -⟩ := findClient_some hchecks.found
  obtain ⟨url, hurl, hkw⟩ := Client.exists_of_hasRedirectUri hchecks.redirectUri
  exact ⟨kw, client, url, target, rfl, hans, hmem, rfl, hid, hurl, hkw, rfl⟩

theorem issuesOnOwnBehalf_of {s : State} {authorization : Option String} {kw : Kw}
    {client : Row Client} {id : Nat}
    (hcreates : Creates P id s (.request (.token authorization kw)))
    (hgrant : grantType kw = some .clientCredentials)
    (hclient : AuthenticatedAs P s.ctx authorization kw client)
    (hconf : client.val.clientType = .confidential) :
    IssuesOnOwnBehalf P id client.id s (.request (.token authorization kw)) :=
  ⟨hcreates, authorization, kw, client, rfl, grantType_name hgrant, hclient.mem, rfl, hconf,
    hclient.presents hconf⟩

/-! ## Every run -/

/-- What is known of a row after a run. -/
structure Provenance (P : Platform) (s₀ : State) (as : List Step) (id : Nat) (t : Token) :
    Prop where
  /-- A user's row goes back to an authorize call of the user. -/
  user : ∀ u ∈ t.userId, (server P).Past (Authorizes P u t.clientId t.scope) s₀ as
  /-- A row of no user is a client's own access token. -/
  noUser : t.userId = none →
    t.tokenType = .access ∧ (server P).Past (IssuesOnOwnBehalf P id t.clientId) s₀ as
  /-- An access or refresh row was issued to a client that authenticated. -/
  issued : t.tokenType ≠ .code → (server P).Past (Issues P id t.clientId) s₀ as

theorem Provenance.evolves {s₀ : State} {as : List Step} {id : Nat} {t t' : Token}
    (h : Provenance P s₀ as id t) (he : Evolves t t') : Provenance P s₀ as id t' := by
  obtain ⟨hu, hc, hsc, ht⟩ := he.fields
  exact ⟨by rw [hu, hc, hsc]; exact h.user, by rw [hu, hc, ht]; exact h.noUser,
    by rw [ht, hc]; exact h.issued⟩

theorem Provenance.concat {s₀ : State} {as : List Step} {id : Nat} {t : Token}
    (h : Provenance P s₀ as id t) (a : Step) : Provenance P s₀ (as ++ [a]) id t where
  user u hu := (server P).past_concat.mpr (Or.inl (h.user u hu))
  noUser hn := ⟨(h.noUser hn).1, (server P).past_concat.mpr (Or.inl (h.noUser hn).2)⟩
  issued ht := (server P).past_concat.mpr (Or.inl (h.issued ht))

/-- A new row's provenance, from that of the rows before the step. -/
theorem Origin.provenance {s₀ : State} {as : List Step} {q : Request} {id : Nat} {t : Token}
    {e : Nat} {reply : Reply}
    (h : Origin P ((server P).exec s₀ as).ctx ((server P).exec s₀ as).rows
      ((server P).exec s₀ as).drawn e q t)
    (hans : (server P).answer ((server P).exec s₀ as) (.request q) = some (.ok reply))
    (hreply : ∀ uid kw, q = .authorize uid kw → ∃ target, reply = .redirect target)
    (hcreates : Creates P id ((server P).exec s₀ as) (.request q))
    (hrows : ∀ r ∈ ((server P).exec s₀ as).rows, Provenance P s₀ as r.id r.val) :
    Provenance P s₀ (as ++ [.request q]) id t := by
  have hpast : ∀ {C : State → Step → Prop}, C ((server P).exec s₀ as) (.request q) →
      (server P).Past C s₀ (as ++ [.request q]) :=
    fun hC => (server P).past_concat.mpr (Or.inr hC)
  cases h with
  | @authorized uid kw client _ _ _ hchecks _ _ =>
    obtain ⟨target, rfl⟩ := hreply uid kw rfl
    refine ⟨fun u hu => ?_, fun hn => (by cases hn), fun ht => absurd rfl ht⟩
    cases hu
    exact hpast (authorizes_of hans hchecks)
  | @derived authorization kw client source tokenType _ _ _ hclient hsource howner hnotAccess
      hnotCode _ _ =>
    have hsrc := hrows source hsource
    refine ⟨fun u hu => ?_, fun hn => ?_, fun _ => ?_⟩
    · -- the client and the scope of the new row are those of its source
      have := hsrc.user u hu
      rw [howner] at this
      simp only [derivedToken, newToken, charColumn_scope]
      exact (server P).past_concat.mpr (Or.inl this)
    · exact absurd (hsrc.noUser hn).1 hnotAccess
    · exact hpast ⟨hcreates, authorization, kw, client, rfl, hclient.mem, rfl, hclient.presents⟩
  | @ownBehalf authorization kw client _ _ hgrant hclient _ hconf _ _ =>
    refine ⟨fun u hu => (by cases hu), fun _ => ⟨rfl, ?_⟩, fun _ => ?_⟩
    · exact hpast (issuesOnOwnBehalf_of hcreates hgrant hclient hconf)
    · exact hpast ⟨hcreates, authorization, kw, client, rfl, hclient.mem, rfl, hclient.presents⟩

/-- An authorize call that returns redirects. -/
theorem authorize_reply {s : State} {uid : Nat} {kw : Kw} {reply : Reply}
    (h : (server P).answer s (.request (.authorize uid kw)) = some (.ok reply)) :
    ∃ target, reply = .redirect target := by
  rcases request_effect P s (.authorize uid kw) with ⟨_, he, -⟩ | ⟨_, _, _, _, he, heff, -⟩
  · rw [he] at h
    cases h
  · rw [he] at h
    cases h
    cases heff
    exact ⟨_, rfl⟩

theorem provenance_run (P : Platform) (clients : Clients) (now : Int) (as : List Step) :
    (∀ r ∈ ((server P).exec (initial clients now) as).rows,
      r.id < ((server P).exec (initial clients now) as).nextId) ∧
    ∀ r ∈ ((server P).exec (initial clients now) as).rows,
      Provenance P (initial clients now) as r.id r.val := by
  refine (server P).run_induction (s := initial clients now)
    (J := fun as s => (∀ r ∈ s.rows, r.id < s.nextId) ∧
      ∀ r ∈ s.rows, Provenance P (initial clients now) as r.id r.val) ?_ ?_ as
  · exact ⟨fun r hr => (by cases hr), fun r hr => (by cases hr)⟩
  · rintro as a ⟨hlt, hprov⟩
    have hn := (next_counters P ((server P).exec (initial clients now) as) a).2
    refine ⟨fun r hr => ?_, fun r hr => ?_⟩
    · rcases row_origin hr with ⟨r', hr', he, -⟩ | ⟨-, -, -, -, -, -, -, -, h⟩
      · exact he ▸ Nat.lt_of_lt_of_le (hlt r' hr') hn
      · exact h
    · rcases row_origin hr with ⟨r', hr', he, hev⟩ | ⟨q, val, reply, rfl, hans, ho, hev, hid, -⟩
      · exact he ▸ ((hprov r' hr').evolves hev).concat a
      · -- the id is new: every row before the step has a smaller one
        have hcreates : Creates P r.id _ (.request q) :=
          ⟨fun r' hr' h => Nat.not_lt.mpr hid (h ▸ hlt r' hr'), r, hr, rfl⟩
        refine (ho.provenance hans ?_ hcreates hprov).evolves hev
        rintro uid kw rfl
        exact authorize_reply hans

/-- **Provenance.**  In every state reached from an empty token table, by any requests and any
edits of the clients in between: an access or refresh row of user `u` goes back to an authorize
call in `u`'s own session, for the row's client and scope and a redirect_uri registered for the
client at that moment; a row without a user is an access row issued by client_credentials to a
confidential client that presented its secret; and an access or refresh row was issued in a
request that presented the secret of its client if the client was confidential. -/
theorem token_provenance (P : Platform) (clients : Clients) (now : Int) (as : List Step)
    (r : Row Token) (hr : r ∈ ((server P).exec (initial clients now) as).rows) :
    (r.val.tokenType ≠ .code → ∀ u, r.val.userId = some u →
      (server P).Past (Authorizes P u r.val.clientId r.val.scope) (initial clients now) as) ∧
    (r.val.userId = none → r.val.tokenType = .access ∧
      (server P).Past (IssuesOnOwnBehalf P r.id r.val.clientId) (initial clients now) as) ∧
    (r.val.tokenType ≠ .code →
      (server P).Past (Issues P r.id r.val.clientId) (initial clients now) as) := by
  have h := (provenance_run P clients now as).2 r hr
  exact ⟨fun _ u hu => h.user u hu, h.noUser, h.issued⟩

/-- The refresh token of a redeemed code goes back to the user's authorize call. -/
theorem token_provenance_redeemed :
    (server Platform.sample).Past (Authorizes Platform.sample 7 1 "read")
      (initial [webClient] 0) [authorizeWeb "read", redeemWeb 0] :=
  (token_provenance Platform.sample [webClient] 0 [authorizeWeb "read", redeemWeb 0]
    ⟨2, newToken Platform.sample 2 0 1 (some 7) .refresh (.str "read") 1209600 none none⟩
    (by decide)).1 (by decide) 7 rfl

end SsiRest.Oauth
