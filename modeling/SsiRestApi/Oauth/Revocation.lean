import SsiRestApi.Oauth.Provenance
import SsiRestApi.Oauth.Provider
import SsiRestApi.Oauth.Secrets

/-!
# Revocation

What a revoke request does, as a function of the clients and the tokens alone
(`revoke_transact`), and what follows for every run:

* permanent: a revoked token never authenticates and is never refreshed again;
* isolated: only a row of the authenticated client with the presented value changes;
* idempotent: the same request again changes nothing;
* silent: the response says nothing about the token table.
-/

namespace SsiRest.Oauth

open Py Tx

/-- The client a revoke request authenticates as, or the error it gets. -/
def revokeClient (P : Platform) (clients : Clients) (authorization : Option String) (kw : Kw) :
    Except Exn (Row Client) :=
  let credentials := extractClientCredentials authorization kw
  if !(kw.get "token").truthy then
    .error (RestAuthError "invalid_request" "token is required." 400)
  else if !credentials.1.truthy then
    .error (RestAuthError "invalid_client" "client_id is required." 401)
  else match findClient clients credentials.1 with
    | none => .error (RestAuthError "invalid_client" "Unknown or inactive client_id." 401)
    | some client =>
      if client.val.clientType ≠ .confidential then .ok client
      else match client.val.checkClientSecret P credentials.2 with
        | .error e => .error e
        | .ok true => .ok client
        | .ok false => .error invalidClientCredentials

/-- The rows after the row that was found is revoked. -/
def revokeRows (record : Option (Row Token)) (rows : List (Row Token)) : List (Row Token) :=
  applyOps ((record.toList.map (·.id)).map fun id => .upd id TokenWrite.revoked) rows

variable {P : Platform}

/-- A revoke request, in terms of its client and what it finds. -/
theorem revoke_transact (authorization : Option String) (kw : Kw) (s : State) :
    (revoke P authorization kw).transact s =
      match revokeClient P s.ctx authorization kw with
      | .error e => (s, .error e)
      | .ok client =>
        match lookupForRevoke P s.rows (kw.get "token") client.id with
        | .error e => (s, .error e)
        | .ok record => ({ s with rows := revokeRows record s.rows }, .ok .empty) := by
  have hrun : (revoke P authorization kw).run s =
      match revokeClient P s.ctx authorization kw with
      | .error e => (.error e, s)
      | .ok client =>
        match lookupForRevoke P s.rows (kw.get "token") client.id with
        | .error e => (.error e, s)
        | .ok record => (.ok .empty, { s with rows := revokeRows record s.rows }) := by
    unfold revoke revokeClient checkClientSecretIfConfidential
    by_cases htoken : (kw.get "token").truthy = true
    · by_cases hid : (extractClientCredentials authorization kw).1.truthy = true
      · cases hfind : findClient s.ctx (extractClientCredentials authorization kw).1 with
        | none => simp [htoken, hid, hfind]
        | some client =>
          by_cases hconf : client.val.clientType = .confidential
          · cases hcheck : client.val.checkClientSecret P
                (extractClientCredentials authorization kw).2 with
            | error e => simp [htoken, hid, hfind, hconf, hcheck]
            | ok b =>
              cases b with
              | false => simp [htoken, hid, hfind, hconf, hcheck]
              | true =>
                cases hrecord : lookupForRevoke P s.rows (kw.get "token") client.id <;>
                  simp [htoken, hid, hfind, hconf, hcheck, hrecord, Prog.run_writeAll, revokeRows]
          · cases hrecord : lookupForRevoke P s.rows (kw.get "token") client.id <;>
              simp [htoken, hid, hfind, hconf, hrecord, Prog.run_writeAll, revokeRows]
      · simp [htoken, hid]
    · simp [htoken]
  unfold Prog.transact
  rw [hrun]
  cases revokeClient P s.ctx authorization kw with
  | error e => rfl
  | ok client =>
    dsimp only
    cases lookupForRevoke P s.rows (kw.get "token") client.id with
    | error e => rfl
    | ok record => rfl

@[simp] theorem revokeRows_none (rows : List (Row Token)) : revokeRows none rows = rows := rfl

@[simp] theorem revokeRows_some (record : Row Token) (rows : List (Row Token)) :
    revokeRows (some record) rows = rows.map fun r =>
      if r.id = record.id then ⟨r.id, { r.val with revoked := true }⟩ else r := rfl

/-! ## A dead token -/

/-- Every row made from the `i`-th random text, and every row with this id, is revoked, and
neither the random text nor the id will be given out again. -/
structure Dead (P : Platform) (i id : Nat) (s : State) : Prop where
  drawn : i < s.drawn
  issued : id < s.nextId
  value : ∀ r ∈ s.rows, Made P i r.val → r.val.revoked = true
  row : ∀ r ∈ s.rows, r.id = id → r.val.revoked = true

theorem Evolves.revoked {t t' : Token} (h : Evolves t t') (ht : t.revoked = true) :
    t'.revoked = true := by
  rcases h with rfl | rfl
  · exact ht
  · rfl

theorem Dead.next (hP : P.Exact) {i id : Nat} {s : State} (h : Dead P i id s) (a : Step) :
    Dead P i id ((server P).next s a) where
  drawn := Nat.lt_of_lt_of_le h.drawn (next_counters P s a).1
  issued := Nat.lt_of_lt_of_le h.issued (next_counters P s a).2
  value r hr hm := by
    rcases row_origin hr with ⟨r', hr', -, hev⟩ | ⟨q, val, _, -, -, ho, hev, -, -⟩
    · exact hev.revoked (h.value r' hr' ((hev.made i).mp hm))
    · -- a new row is made from a random text drawn after the `i`-th
      obtain ⟨j, hj, -, hmj⟩ := ho.made
      have := Made.inj hP ((hev.made i).mp hm) hmj
      have := h.drawn
      omega
  row r hr hid := by
    rcases row_origin hr with ⟨r', hr', he, hev⟩ | ⟨q, val, _, -, -, -, -, hn, -⟩
    · exact hev.revoked (h.row r' hr' (he.trans hid))
    · have := h.issued
      omega

theorem Dead.not_found (hP : P.Exact) {i id : Nat} {s : State} (h : Dead P i id s)
    (hsep : Separated P s.drawn s.nextId s.rows) {now : Int} {tokenType : TokenType}
    {client : Option Nat} {r : Row Token} :
    lookup P s.rows now (.str (rawValue P i)) tokenType client ≠ .ok (some r) := by
  intro hl
  obtain ⟨hr, hlive, raw, hraw, hv⟩ := lookup_some hl
  cases hraw
  obtain ⟨-, j, -, hmj⟩ := hsep.known r hr
  obtain rfl := rawValue_inj hP (hmj.of_verify hP hv)
  have := h.value r hr hmj
  rw [hlive.unrevoked] at this
  cases this

/-- A dead token authenticates no request. -/
theorem Dead.restAuthVerify (hP : P.Exact) {i id : Nat} {s : State} (h : Dead P i id s)
    (hsep : Separated P s.drawn s.nextId s.rows) (publicUser : Nat) :
    ∃ e, restAuthVerify P publicUser s.ctx s.rows s.now (rawValue P i) = .error e := by
  cases hv : Oauth.restAuthVerify P publicUser s.ctx s.rows s.now (rawValue P i) with
  | error e => exact ⟨e, rfl⟩
  | ok result =>
    obtain ⟨record, hl, -⟩ := restAuthVerify_ok.mp hv
    exact absurd hl (h.not_found hP hsep)

/-- A dead token is not refreshed. -/
theorem Dead.refresh (hP : P.Exact) {i id : Nat} {s : State} (h : Dead P i id s)
    (hsep : Separated P s.drawn s.nextId s.rows) {authorization : Option String} {kw : Kw}
    (hgrant : grantType kw = some .refreshToken)
    (hkw : kw.get "refresh_token" = .str (rawValue P i)) :
    ∃ e, (server P).answer s (.request (.token authorization kw)) = some (.error e) := by
  rcases request_effect P s (.token authorization kw) with ⟨e, he, -⟩ | ⟨_, _, _, _, -, heff, -⟩
  · exact ⟨e, he⟩
  · cases heff with
    | redeem hgrant' => rw [hgrant] at hgrant'; cases hgrant'
    | clientCredentials hgrant' => rw [hgrant] at hgrant'; cases hgrant'
    | refresh _ _ _ hrefresh =>
      rw [hkw] at hrefresh
      exact absurd hrefresh (h.not_found hP hsep)

/-! ## One revoke request -/

/-- The request that presents a token's raw value as its client kills the token. -/
theorem dead_of_revoke (hP : P.Exact) {s : State} (hsep : Separated P s.drawn s.nextId s.rows)
    {authorization : Option String} {kw : Kw} {client : Row Client}
    (hclient : revokeClient P s.ctx authorization kw = .ok client) {t : Row Token}
    (ht : t ∈ s.rows) (htype : t.val.tokenType ≠ .code) (howner : client.id = t.val.clientId)
    {i : Nat} (hm : Made P i t.val) (hkw : kw.get "token" = .str (rawValue P i)) :
    Dead P i t.id ((server P).next s (.request (.revoke authorization kw))) := by
  have hfind : lookupForRevoke P s.rows (kw.get "token") client.id = .ok (some t) := by
    rw [hkw]
    exact findByRaw_of_made hP hsep ht (by simp [htype, howner]) hm
  have hnext : (server P).next s (.request (.revoke authorization kw)) =
      { s with rows := revokeRows (some t) s.rows } := by
    show ((revoke P authorization kw).transact s).1 = _
    rw [revoke_transact, hclient]
    dsimp only
    rw [hfind]
  obtain ⟨hlt, j, hj, hmj⟩ := hsep.known t ht
  rw [hnext, revokeRows_some]
  refine ⟨Made.inj hP hm hmj ▸ hj, hlt, fun r hr hmr => ?_, fun r hr hid => ?_⟩
  · obtain ⟨r', hr', rfl⟩ := List.mem_map.mp hr
    split at hmr
    · next he => simp [he]
    · next he => exact absurd (congrArg Row.id (hsep.eq_of_made hr' ht hmr hm)) he
  · obtain ⟨r', hr', rfl⟩ := List.mem_map.mp hr
    split at hid
    · next he => simp [he]
    · next he => exact absurd hid he

/-- The state after a revoke request: as before, or with the row that was found revoked. -/
theorem revoke_next (authorization : Option String) (kw : Kw) (s : State) :
    (server P).next s (.request (.revoke authorization kw)) = s ∨
      ∃ client record, revokeClient P s.ctx authorization kw = .ok client ∧
        lookupForRevoke P s.rows (kw.get "token") client.id = .ok (some record) ∧
        (server P).next s (.request (.revoke authorization kw)) =
          { s with rows := revokeRows (some record) s.rows } := by
  have hnext : (server P).next s (.request (.revoke authorization kw)) =
      ((revoke P authorization kw).transact s).1 := rfl
  rw [hnext, revoke_transact]
  cases hc : revokeClient P s.ctx authorization kw with
  | error e => exact Or.inl rfl
  | ok client =>
    cases hl : lookupForRevoke P s.rows (kw.get "token") client.id with
    | error e => exact Or.inl (by simp only [hl])
    | ok record =>
      cases record with
      | none => exact Or.inl (by simp only [hl, revokeRows_none])
      | some record => exact Or.inr ⟨client, record, rfl, hl, by simp only [hl]⟩

/-- A row that changes belongs to the authenticated client and was made from the value. -/
theorem revoke_isolated (hP : P.Exact) {s : State} (hsep : Separated P s.drawn s.nextId s.rows)
    (authorization : Option String) (kw : Kw) {r : Row Token} (hr : r ∈ s.rows) :
    r ∈ ((server P).next s (.request (.revoke authorization kw))).rows ∨
      ∃ client raw, revokeClient P s.ctx authorization kw = .ok client ∧
        client.id = r.val.clientId ∧ kw.get "token" = .str raw ∧ IsRawValue P raw r.val := by
  rcases revoke_next (P := P) authorization kw s with h | ⟨client, record, hc, hl, h⟩
  · rw [h]
    exact Or.inl hr
  · rw [h, revokeRows_some]
    by_cases hid : r.id = record.id
    · obtain ⟨hmem, -, howner, raw, hraw, hv⟩ := lookupForRevoke_some hl
      obtain rfl := hsep.eq_of_id hr hmem hid
      obtain ⟨-, i, -, hm⟩ := hsep.known r hr
      exact Or.inr ⟨client, raw, hc, howner.symm, hraw, i, hm.of_verify hP hv, hm⟩
    · exact Or.inl (List.mem_map.mpr ⟨r, hr, by simp [hid]⟩)

/-- A revoke request creates and deletes no row. -/
theorem revoke_ids (authorization : Option String) (kw : Kw) (s : State) :
    ((server P).next s (.request (.revoke authorization kw))).rows.map (·.id) =
      s.rows.map (·.id) := by
  rcases revoke_next (P := P) authorization kw s with h | ⟨client, record, hc, hl, h⟩
  · rw [h]
  · rw [h, revokeRows_some, List.map_map]
    refine List.map_congr_left fun r _ => ?_
    dsimp only [Function.comp]
    split <;> rfl

theorem revokeRows_twice (record : Row Token) (rows : List (Row Token)) :
    revokeRows (some record) (revokeRows (some record) rows) = revokeRows (some record) rows := by
  rw [revokeRows_some, revokeRows_some, List.map_map]
  refine List.map_congr_left fun r _ => ?_
  by_cases h : r.id = record.id <;> simp [h]

theorem revokeRows_id {record record' : Row Token} (h : record'.id = record.id)
    (rows : List (Row Token)) : revokeRows (some record') rows = revokeRows (some record) rows := by
  rw [revokeRows_some, revokeRows_some, h]

theorem mem_revokeRows {record : Row Token} {rows : List (Row Token)} {r : Row Token}
    (h : r ∈ revokeRows (some record) rows) :
    ∃ r' ∈ rows, r'.id = r.id ∧ Evolves r'.val r.val := by
  obtain ⟨r', hr', rfl⟩ := List.mem_map.mp h
  refine ⟨r', hr', ?_⟩
  split
  · exact ⟨rfl, Or.inr rfl⟩
  · exact ⟨rfl, Or.inl rfl⟩

/-- After the row of a value is revoked, the value still leads to that row. -/
theorem lookupForRevoke_again (hP : P.Exact) {d n : Nat} {rows : List (Row Token)}
    (hsep : Separated P d n rows) {raw : Json} {client client' : Nat} {record record' : Row Token}
    (hl : lookupForRevoke P rows raw client = .ok (some record))
    (hl' : lookupForRevoke P (revokeRows (some record) rows) raw client' = .ok (some record')) :
    record'.id = record.id := by
  obtain ⟨hmem, -, -, s, hs, hv⟩ := lookupForRevoke_some hl
  obtain ⟨hmem', -, -, s', hs', hv'⟩ := lookupForRevoke_some hl'
  rw [hs] at hs'
  cases hs'
  obtain ⟨r, hr, hid, hev⟩ := mem_revokeRows hmem'
  obtain ⟨-, i, -, hm⟩ := hsep.known record hmem
  obtain ⟨-, j, -, hmj⟩ := hsep.known r hr
  obtain rfl : i = j := rawValue_inj hP
    ((hm.of_verify hP hv).symm.trans (((hev.made j).mpr hmj).of_verify hP hv'))
  rw [← hid, hsep.eq_of_made hr hmem hmj hm]

/-- The same request again changes nothing. -/
theorem revoke_idempotent (hP : P.Exact) {s : State}
    (hsep : Separated P s.drawn s.nextId s.rows) (authorization : Option String) (kw : Kw) :
    (server P).next ((server P).next s (.request (.revoke authorization kw)))
        (.request (.revoke authorization kw)) =
      (server P).next s (.request (.revoke authorization kw)) := by
  rcases revoke_next (P := P) authorization kw s with h | ⟨client, record, hc, hl, h⟩
  · rw [h, h]
  · rw [h]
    rcases revoke_next (P := P) authorization kw { s with rows := revokeRows (some record) s.rows }
      with h' | ⟨client', record', hc', hl', h'⟩
    · exact h'
    · rw [h']
      dsimp only
      rw [revokeRows_id (lookupForRevoke_again hP hsep hl hl'), revokeRows_twice]

/-- The response depends on the client authentication and the parameters alone. -/
theorem revoke_silent (hP : P.Exact) {s s' : State} (hsep : Separated P s.drawn s.nextId s.rows)
    (hsep' : Separated P s'.drawn s'.nextId s'.rows) (authorization : Option String) (kw : Kw)
    (hclient : (revokeClient P s.ctx authorization kw).map (fun _ => ()) =
      (revokeClient P s'.ctx authorization kw).map fun _ => ()) :
    (server P).answer s (.request (.revoke authorization kw)) =
      (server P).answer s' (.request (.revoke authorization kw)) := by
  have hans : ∀ s : State, (server P).answer s (.request (.revoke authorization kw)) =
      some ((revoke P authorization kw).transact s).2 := fun _ => rfl
  rw [hans, hans, revoke_transact, revoke_transact]
  cases hc : revokeClient P s.ctx authorization kw with
  | error e =>
    cases hc' : revokeClient P s'.ctx authorization kw with
    | error e' =>
      rw [hc, hc'] at hclient
      cases hclient
      rfl
    | ok client' =>
      rw [hc, hc'] at hclient
      cases hclient
  | ok client =>
    cases hc' : revokeClient P s'.ctx authorization kw with
    | error e' =>
      rw [hc, hc'] at hclient
      cases hclient
    | ok client' =>
      dsimp only
      cases hl : lookupForRevoke P s.rows (kw.get "token") client.id with
      | error e =>
        have hl' : lookupForRevoke P s'.rows (kw.get "token") client'.id = .error e :=
          findByRaw_error hP hsep hl _ _
        rw [hl']
      | ok record =>
        cases hl' : lookupForRevoke P s'.rows (kw.get "token") client'.id with
        | error e' =>
          have : lookupForRevoke P s.rows (kw.get "token") client.id = .error e' :=
            findByRaw_error hP hsep' hl' _ _
          rw [hl] at this
          cases this
        | ok record' => rfl

/-- **Revocation.**  In every reachable state: a revoke request that authenticates as the client
of an access or refresh token and presents the token's raw value ends the token, in every run
that follows; a revoke request changes no row but that of its own client with the presented
value, and creates and deletes none; the same request again changes nothing; and its response
is the same in any other reachable state with the same client authentication outcome. -/
theorem revocation (P : Platform) (hP : P.Exact) (clients : Clients) (now : Int)
    (before : List Step) (authorization : Option String) (kw : Kw) :
    (∀ t ∈ ((server P).exec (initial clients now) before).rows, ∀ raw client,
      t.val.tokenType ≠ .code → IsRawValue P raw t.val → kw.get "token" = .str raw →
      revokeClient P ((server P).exec (initial clients now) before).ctx authorization kw =
        .ok client → client.id = t.val.clientId →
      ∀ after s, s = (server P).exec (initial clients now)
          (before ++ .request (.revoke authorization kw) :: after) →
        (∀ r ∈ s.rows, r.id = t.id → r.val.revoked = true) ∧
        (∀ publicUser, ∃ e, restAuthVerify P publicUser s.ctx s.rows s.now raw = .error e) ∧
        ∀ authorization' kw', grantType kw' = some .refreshToken →
          kw'.get "refresh_token" = .str raw →
          ∃ e, (server P).answer s (.request (.token authorization' kw')) = some (.error e)) ∧
    (∀ s, s = (server P).exec (initial clients now) before →
      (∀ r ∈ s.rows, r ∈ ((server P).next s (.request (.revoke authorization kw))).rows ∨
        ∃ client raw, revokeClient P s.ctx authorization kw = .ok client ∧
          client.id = r.val.clientId ∧ kw.get "token" = .str raw ∧ IsRawValue P raw r.val) ∧
      ((server P).next s (.request (.revoke authorization kw))).rows.map (·.id) =
        s.rows.map (·.id) ∧
      (server P).next ((server P).next s (.request (.revoke authorization kw)))
          (.request (.revoke authorization kw)) =
        (server P).next s (.request (.revoke authorization kw)) ∧
      ∀ clients' now' before' s', s' = (server P).exec (initial clients' now') before' →
        (revokeClient P s.ctx authorization kw).map (fun _ => ()) =
          (revokeClient P s'.ctx authorization kw).map (fun _ => ()) →
        (server P).answer s (.request (.revoke authorization kw)) =
          (server P).answer s' (.request (.revoke authorization kw))) := by
  have hsep := separated_run hP clients now before
  refine ⟨?_, ?_⟩
  · rintro t ht raw client htype ⟨i, rfl, hm⟩ hkw hclient howner after s rfl
    have hdead : Dead P i t.id ((server P).exec (initial clients now)
        (before ++ .request (.revoke authorization kw) :: after)) :=
      (server P).once (fun _ a h => h.next hP a)
        (dead_of_revoke hP hsep hclient ht htype howner hm hkw)
    have hsep' := separated_run hP clients now
      (before ++ .request (.revoke authorization kw) :: after)
    exact ⟨hdead.row, hdead.restAuthVerify hP hsep',
      fun _ _ hgrant hkw' => hdead.refresh hP hsep' hgrant hkw'⟩
  · rintro s rfl
    refine ⟨fun r hr => revoke_isolated hP hsep authorization kw hr,
      revoke_ids authorization kw _, revoke_idempotent hP hsep authorization kw, ?_⟩
    rintro clients' now' before' s' rfl hclient
    exact revoke_silent hP hsep (separated_run hP clients' now' before') authorization kw hclient

/-- The access token of a redeemed code, revoked by its client, authenticates no more. -/
theorem revocation_access :
    ∃ e, restAuthVerify Platform.sample 3 [webClient]
      ((server Platform.sample).exec (initial [webClient] 0)
        ([authorizeWeb "read", redeemWeb 0] ++
          [.request (.revoke none (revokeWebKw 1))])).rows 0
      (rawValue Platform.sample 1) = .error e :=
  ((revocation Platform.sample Platform.sample_exact [webClient] 0
    [authorizeWeb "read", redeemWeb 0] none (revokeWebKw 1)).1
    ⟨1, newToken Platform.sample 1 0 1 (some 7) .access (.str "read") 3600 none none⟩ (by decide)
    (rawValue Platform.sample 1) webClient (by decide) ⟨1, rfl, made_newToken ..⟩ rfl rfl rfl
    [] _ rfl).2.1 3

/-- A revoke request that presents the refresh token changes a row other than the access token's,
whose value it does not present. -/
theorem revoke_of_other_value :
    ¬ ∀ s, s = (server Platform.sample).exec (initial [webClient] 0)
        [authorizeWeb "read", redeemWeb 0] →
      ∀ t ∈ s.rows, ∀ raw, IsRawValue Platform.sample raw t.val →
        (revokeWebKw 2).get "token" ≠ .str raw →
        ((server Platform.sample).next s (.request (.revoke none (revokeWebKw 2)))).rows =
          s.rows := by
  intro h
  have hrows := h _ rfl
    ⟨1, newToken Platform.sample 1 0 1 (some 7) .access (.str "read") 3600 none none⟩ (by decide)
    (rawValue Platform.sample 1) ⟨1, rfl, made_newToken ..⟩
    (fun hkw => absurd (Json.str.inj hkw) (by decide))
  exact absurd hrows (by decide)

end SsiRest.Oauth
