import SsiRestApi.Oauth.Owned
import SsiRestApi.Oauth.Provenance
import SsiRestApi.Oauth.Provider

/-!
# Scope confinement

A scope enters the token table at authorize and at client_credentials, and is
copied from there on.  Neither entry compares it with the client's `scope_ids`,
so the table is confined exactly as far as the requests are.

    every grant asks for codes of the client's scopes →
      every row, result and response carries only such codes   (scopes_confined)
-/

namespace SsiRest.Oauth

open Py Tx

/-- The step grants `scope` to the client row `clientId`: it answers an authorize call, or a
client_credentials request that creates a row with that scope. -/
inductive Grants (P : Platform) (clientId : Nat) (scope : String) (s : State) (a : Step) : Prop
  | authorize (user : Nat) (h : Authorizes P user clientId scope s a)
  | clientCredentials (r : Row Token) (h : IssuesOnOwnBehalf P r.id clientId s a)
      (hr : r ∈ ((server P).next s a).rows) (hscope : r.val.scope = scope)

/-- The step grants `scope`, and each code of it is the code of a scope of the client then. -/
def GrantsWithin (P : Platform) (clientId : Nat) (scope : String) (s : State) (a : Step) : Prop :=
  Grants P clientId scope s a ∧ ∃ client ∈ s.ctx, client.id = clientId ∧
    ∀ code ∈ words scope, code ∈ client.val.scopeCodes

/-- Scope confinement of a run: the rows of its last state, what they authenticate with, and
every token response of the run carry only codes the client had when they were granted. -/
structure ScopesConfined (P : Platform) (publicUser : Nat) (s₀ : State) (as : List Step) :
    Prop where
  rows : ∀ r ∈ ((server P).exec s₀ as).rows,
    (server P).Past (GrantsWithin P r.val.clientId r.val.scope) s₀ as
  results : ∀ credential result,
    restAuthVerify P publicUser ((server P).exec s₀ as).ctx ((server P).exec s₀ as).rows
      ((server P).exec s₀ as).now credential = .ok result →
    ∃ clientId scope, result.scopes = words scope ∧
      (server P).Past (GrantsWithin P clientId scope) s₀ as
  responses : ∀ before a after body scope, as = before ++ a :: after →
    (server P).answer ((server P).exec s₀ before) a = some (.ok (.token body)) →
    body.scope = .str scope →
    ∃ clientId, (server P).Past (GrantsWithin P clientId scope) s₀ (before ++ [a])

/-- The step asks only for codes of the client's scopes: on an authorize call the endpoint
accepts, and on a client_credentials request of an authenticated client, for the scope asked
for or, when none is, for the scope codes themselves. -/
def AsksWithin (P : Platform) (s : State) : Step → Prop
  | .request (.authorize _ kw) =>
    AuthorizesClient P s kw → ∀ client, findClient s.ctx (kw.get "client_id") = some client →
      ∀ code ∈ words (P.charColumn ((kw.get "scope").orElse (.str ""))),
        code ∈ client.val.scopeCodes
  | .request (.token authorization kw) =>
    grantType kw = some .clientCredentials →
      ∀ client, AuthenticatedAs P s.ctx authorization kw client →
        client.val.clientType = .confidential →
        client.val.allowsGrant "client_credentials" = true →
        if (kw.get "scope").truthy then
          ∀ code ∈ words (P.charColumn (kw.get "scope")), code ∈ client.val.scopeCodes
        else ∀ scopeCode ∈ client.val.scopeCodes, ∀ code ∈ words scopeCode,
          code ∈ client.val.scopeCodes
  | _ => True

variable {P : Platform}

/-! ## One grant -/

/-- An answered authorize call passed every check. -/
theorem authorizesClient_of_answer {s : State} {uid : Nat} {kw : Kw} {reply : Reply}
    (h : (server P).answer s (.request (.authorize uid kw)) = some (.ok reply)) :
    AuthorizesClient P s kw := by
  have hok : ((authorize P uid kw).transact s).2 = .ok reply := Option.some.inj h
  rcases hr : (authorize P uid kw).transact s with ⟨s', r⟩
  rw [hr] at hok
  obtain rfl : r = .ok reply := hok
  exact (of_run_authorize (Prog.transact_ok_iff.mp hr)).1

/-- The words of a client_credentials scope are those asked for, or those of the codes. -/
theorem words_clientCredentialsScope (P : Platform) (client : Row Client) (kw : Kw) :
    words (P.charColumn ((clientCredentialsScope client kw).orElse (.str ""))) =
      if (kw.get "scope").truthy then words (P.charColumn (kw.get "scope"))
      else client.val.scopeCodes.flatMap words := by
  unfold clientCredentialsScope
  by_cases h : (kw.get "scope").truthy = true
  · simp [Json.orElse, h]
  · have he : (kw.get "scope").orElse (.str (join " " client.val.scopeCodes)) =
        .str (join " " client.val.scopeCodes) := by
      simp [Json.orElse, h]
    rw [he, charColumn_scope, words_join, if_neg h]

theorem AsksWithin.clientCredentials {s : State} {authorization : Option String} {kw : Kw}
    {client : Row Client} (h : AsksWithin P s (.request (.token authorization kw)))
    (hgrant : grantType kw = some .clientCredentials)
    (hclient : AuthenticatedAs P s.ctx authorization kw client)
    (hallows : client.val.allowsGrant "client_credentials" = true)
    (hconf : client.val.clientType = .confidential) :
    ∀ code ∈ words (P.charColumn ((clientCredentialsScope client kw).orElse (.str ""))),
      code ∈ client.val.scopeCodes := by
  have h := h hgrant client hclient hconf hallows
  rw [words_clientCredentialsScope]
  split at h
  · next ht =>
    rw [if_pos ht]
    exact h
  · next ht =>
    rw [if_neg ht]
    intro code hcode
    obtain ⟨scopeCode, hs, hc⟩ := List.mem_flatMap.mp hcode
    exact h scopeCode hs code hc

/-! ## Every run -/

theorem rows_confined (P : Platform) (clients : Clients) (now : Int) (as : List Step)
    (h : (server P).Every (AsksWithin P) (initial clients now) as) :
    ∀ r ∈ ((server P).exec (initial clients now) as).rows,
      (server P).Past (GrantsWithin P r.val.clientId r.val.scope) (initial clients now) as := by
  refine (server P).run_induction (s := initial clients now)
    (J := fun as s => (server P).Every (AsksWithin P) (initial clients now) as →
      ∀ r ∈ s.rows, (server P).Past (GrantsWithin P r.val.clientId r.val.scope)
        (initial clients now) as) ?_ ?_ as h
  · exact fun _ r hr => by cases hr
  · intro as a ih hevery r hr
    obtain ⟨hevery, hasks, -⟩ := (server P).every_append.mp hevery
    have ih := ih hevery
    rw [(server P).past_concat]
    rcases row_origin hr with ⟨r', hr', -, hev⟩ | ⟨q, val, reply, rfl, hans, ho, hev, hid, -⟩
    · obtain ⟨-, hc, hs, -⟩ := hev.fields
      rw [hc, hs]
      exact Or.inl (ih r' hr')
    · obtain ⟨-, hc, hs, -⟩ := hev.fields
      rw [hc, hs]
      cases ho with
      | @authorized uid kw client _ _ _ hchecks _ _ =>
        obtain ⟨target, rfl⟩ := authorize_reply hans
        exact Or.inr ⟨.authorize uid (authorizes_of hans hchecks), client,
          (findClient_some hchecks.found).1, rfl,
          hasks (authorizesClient_of_answer hans) client hchecks.found⟩
      | @derived _ _ _ source _ _ _ _ _ hsource howner _ _ _ _ =>
        -- the scope was granted with the row it is copied from
        have := ih source hsource
        rw [howner] at this
        simp only [derivedToken, newToken, charColumn_scope]
        exact Or.inl this
      | @ownBehalf _ _ client _ _ hgrant hclient hallows hconf _ _ =>
        have hlt := (provenance_run P clients now as).1
        have hcreates : Creates P r.id _ _ :=
          ⟨fun r' hr' h => Nat.not_lt.mpr hid (h ▸ hlt r' hr'), r, hr, rfl⟩
        exact Or.inr ⟨.clientCredentials r (issuesOnOwnBehalf_of hcreates hgrant hclient hconf) hr
          hs, client, hclient.mem, rfl, hasks.clientCredentials hgrant hclient hallows hconf⟩

/-- A token response carries the scope of the row it is issued from, or of the row it creates. -/
theorem response_confined (P : Platform) (clients : Clients) (now : Int) (before : List Step)
    (a : Step) (h : (server P).Every (AsksWithin P) (initial clients now) (before ++ [a]))
    {body : TokenResponse} {scope : String}
    (hans : (server P).answer ((server P).exec (initial clients now) before) a =
      some (.ok (.token body))) (hscope : body.scope = .str scope) :
    ∃ clientId, (server P).Past (GrantsWithin P clientId scope) (initial clients now)
      (before ++ [a]) := by
  obtain ⟨hevery, hasks, -⟩ := (server P).every_append.mp h
  have hrows := rows_confined P clients now before hevery
  have hcopied : ∀ r ∈ ((server P).exec (initial clients now) before).rows,
      (Json.str r.val.scope).orElse (.str "") = .str scope →
      ∃ clientId, (server P).Past (GrantsWithin P clientId scope) (initial clients now)
        (before ++ [a]) := by
    intro r hr he
    have hs : r.val.scope = scope := by
      rw [← charColumn_scope P r.val.scope, he]
      rfl
    exact ⟨r.val.clientId, (server P).past_concat.mpr (Or.inl (hs ▸ hrows r hr))⟩
  cases a with
  | tick now => cases hans
  | editClients clients => cases hans
  | request q =>
    rcases request_effect P ((server P).exec (initial clients now) before) q with
      ⟨_, he, -⟩ | ⟨reply, log, e, f, he, heff, -, -, hnext⟩
    · rw [he] at hans
      cases hans
    · rw [he] at hans
      cases hans
      generalize hreply : Reply.token body = reply at heff
      cases heff with
      | redeem _ _ _ hcode =>
        cases hreply
        exact hcopied _ (lookup_some hcode).1 hscope
      | refresh _ _ _ hrefresh =>
        cases hreply
        exact hcopied _ (lookup_some hrefresh).1 hscope
      | @clientCredentials authorization kw client i id t hgrant hclient hallows hconf _ _ hid _ =>
        cases hreply
        have hlt := (provenance_run P clients now before).1
        have hs : P.charColumn ((clientCredentialsScope client kw).orElse (.str "")) = scope := by
          rw [show (clientCredentialsScope client kw).orElse (.str "") = .str scope from hscope]
          rfl
        have hnew : (⟨id, newToken P i t client.id none .access (clientCredentialsScope client kw)
            client.val.accessTokenLifetime none none⟩ : Row Token) ∈
            ((server P).next ((server P).exec (initial clients now) before)
              (.request (.token authorization kw))).rows := by
          rw [hnext]
          exact List.mem_cons_self
        have hcreates : Creates P id ((server P).exec (initial clients now) before)
            (.request (.token authorization kw)) :=
          ⟨fun r hr h => Nat.not_lt.mpr hid (h ▸ hlt r hr), _, hnew, rfl⟩
        refine ⟨client.id, (server P).past_concat.mpr (Or.inr ⟨.clientCredentials _
          (issuesOnOwnBehalf_of hcreates hgrant hclient hconf) hnew hs, client, hclient.mem, rfl,
          ?_⟩)⟩
        rw [← hs]
        exact hasks.clientCredentials hgrant hclient hallows hconf
      | authorize => cases hreply
      | revoke => cases hreply
      | actionRevoke => cases hreply
      | gcExpiredOauthToken => cases hreply

/-- **Scope confinement.**  In every run whose authorize and client_credentials steps ask only
for codes of the client's scopes, every row, every authentication result and every token
response carries only codes that the client had when they were granted. -/
theorem scopes_confined (P : Platform) (publicUser : Nat) (clients : Clients) (now : Int)
    (as : List Step) (h : (server P).Every (AsksWithin P) (initial clients now) as) :
    ScopesConfined P publicUser (initial clients now) as where
  rows := rows_confined P clients now as h
  results credential result hok := by
    obtain ⟨record, hlookup, rfl⟩ := restAuthVerify_ok.mp hok
    exact ⟨record.val.clientId, record.val.scope, rfl,
      rows_confined P clients now as h record (lookup_some hlookup).1⟩
  responses before a after body scope he hans hscope := by
    subst he
    rw [List.append_cons] at h
    exact response_confined P clients now before a ((server P).every_append.mp h).1 hans hscope

/-- A user who asks for a code of the client gets it, and so does the refresh token. -/
theorem scopes_confined_read :
    ScopesConfined Platform.sample 3 (initial [webClient] 0)
      [authorizeWeb "read", redeemWeb 0] := by
  refine scopes_confined Platform.sample 3 [webClient] 0 _ ⟨?_, fun hgrant => ?_, trivial⟩
  · intro _ client hclient
    obtain rfl : webClient = client := Option.some.inj hclient
    decide
  · exact absurd hgrant (by decide)

/-- An authorize call for the scope `admin`, which the client does not have, is granted. -/
theorem not_scopes_confined_admin :
    ¬ ScopesConfined Platform.sample 3 (initial [webClient] 0) [authorizeWeb "admin"] := by
  intro h
  obtain ⟨before, a, after, he, -, client, hmem, -, hcodes⟩ := h.rows
    ⟨0, newToken Platform.sample 0 0 1 (some 7) .code (.str "admin") authCodeLifetimeSeconds
      (some (.str "verifier")) (some .plain)⟩ (by decide)
  obtain ⟨rfl, rfl⟩ : before = [] ∧ after = [] := by
    have := congrArg List.length he
    simp only [List.length_append, List.length_cons, List.length_nil] at this
    exact ⟨List.eq_nil_of_length_eq_zero (by omega), List.eq_nil_of_length_eq_zero (by omega)⟩
  obtain rfl := List.mem_singleton.mp hmem
  exact absurd (hcodes "admin" (by decide)) (by decide)

end SsiRest.Oauth
