import SsiRestApi.Lib.Alike
import SsiRestApi.Lib.Pruned
import SsiRestApi.Oauth.Revocation

/-!
# The vacuum of the token table

`_gc_expired_oauth_token` deletes what no lookup of a live token finds any more.  A run with
collections is set beside the same run without them: the tables differ in expired rows only.

    every response is that of the run without collections   iff   no action_revoke that the
    access list lets through names a row that collections alone deleted  (vacuum_observed_iff)
-/

namespace SsiRest.Oauth

open Py Tx

/-- A step of the server, or a request with an access token. -/
inductive Action where
  | step (a : Step)
  | verify (credential : String)

inductive Observed where
  | answer (answer : Answer)
  | verified (result : Except Exn RestAuthResult)

/-- The server and the oauth2 provider over one token table. -/
def deployment (P : Platform) (publicUser : Nat) : Machine State Action Observed where
  step s a :=
    match a with
    | .step a => ((server P).next s a, .answer ((server P).answer s a))
    | .verify credential =>
      (s, .verified (restAuthVerify P publicUser s.ctx s.rows s.now credential))

/-- Every action but a collection. -/
def Action.visible : Action → Bool
  | step (.request .gcExpiredOauthToken) => false
  | _ => true

/-- The clock is not set back. -/
def Action.Forward (s : State) : Action → Prop
  | step (.tick now) => s.now ≤ now
  | _ => True

instance (s : State) (a : Action) : Decidable (a.Forward s) :=
  match a with
  | .step (.tick now) => inferInstanceAs (Decidable (s.now ≤ now))
  | .step (.request _) => .isTrue trivial
  | .step (.editClients _) => .isTrue trivial
  | .verify _ => .isTrue trivial

/-- In state `s`, beside the state `s'` of the run without collections, an `action_revoke` that the
access list lets through names only rows of `s'`, one of which `s` has no more. -/
def Action.MissesRow (s s' : State) : Action → Prop
  | step (.request (.actionRevoke u ids)) =>
    tokenModel.security.hasAccess u .write = true ∧
      (∀ id ∈ ids, ∃ r ∈ s'.rows, r.id = id) ∧ ∃ id ∈ ids, ∀ r ∈ s.rows, r.id ≠ id
  | _ => False

/-! ## Tables with and without collections -/

/-- The rows of a table on which collections were run, and of the table without them. -/
abbrev Vacuumed (now : Int) : List (Row Token) → List (Row Token) → Prop :=
  List.Pruned fun r => r.val.expirationDate < now

theorem vacuumed_kept (now : Int) : Kept TokenWrite (Vacuumed now) := by
  intro op rows rows' h
  cases op with
  | ins id val => exact .keep _ h
  | upd id u =>
    refine h.map fun r hr => ?_
    split <;> exact hr
  | del id => exact h.filter _

variable {P : Platform} {s s' : State}

/-- A search that lets no expired row through finds the same in both tables. -/
theorem findByRaw_vacuumed {now : Int} {rows rows' : List (Row Token)} (h : Vacuumed now rows rows')
    {cond : Token → Bool} (hcond : ∀ t, t.expirationDate < now → cond t = false) (raw : Json) :
    findByRaw P rows raw cond = findByRaw P rows' raw cond := by
  have hfilter : ∀ index : String,
      rows.filter (fun r => r.val.tokenIndex == index && cond r.val) =
        rows'.filter fun r => r.val.tokenIndex == index && cond r.val := by
    intro index
    refine h.filter_eq fun r hr => ?_
    rw [hcond r.val hr, Bool.and_false]
  unfold findByRaw
  cases raw with
  | str raw => simp only [hfilter]
  | _ => rfl

theorem lookup_vacuumed {now : Int} {rows rows' : List (Row Token)} (h : Vacuumed now rows rows')
    (raw : Json) (tokenType : TokenType) (client : Option Nat) :
    lookup P rows now raw tokenType client = lookup P rows' now raw tokenType client := by
  refine findByRaw_vacuumed h (fun t hexpired => ?_) raw
  -- a row expires at its expiration date, and is collected only after it
  have hnot : decide (t.expirationDate > now) = false := by
    rw [decide_eq_false_iff_not]
    omega
  simp [hnot]

/-! ## The requests that look tokens up -/

theorem alike_issue {db db' : State} {now : Int} (h : Twin (Vacuumed now) db db')
    (client : Row Client) (user : Option Nat) (tokenType : TokenType) (scope : Json)
    (lifetime : Int) (challenge : Option Json) (method : Option ChallengeMethod) :
    Alike (Vacuumed now) (issue P client user tokenType scope lifetime challenge method)
      (issue P client user tokenType scope lifetime challenge method) db db' := by
  unfold issue
  refine (Alike.getDraw h).bind fun i db db' h => Alike.getNow_bind h fun t _ => ?_
  exact (Alike.createRow (vacuumed_kept now) h _).bind fun _ db db' h => Alike.pure h _

/-- The check of a client secret leaves the database alone. -/
theorem run_checkClientSecretIfConfidential (P : Platform) (client : Row Client)
    (clientSecret : Json) : ∃ r : Except Exn Unit, ∀ db : State,
      (checkClientSecretIfConfidential P client clientSecret).run db = (r, db) := by
  unfold checkClientSecretIfConfidential
  split
  · exact ⟨.ok (), fun _ => rfl⟩
  · cases hcheck : client.val.checkClientSecret P clientSecret with
    | error e => exact ⟨.error e, fun _ => rfl⟩
    | ok ok =>
      cases ok with
      | true => exact ⟨.ok (), fun _ => rfl⟩
      | false => exact ⟨.error invalidClientCredentials, fun _ => rfl⟩

theorem alike_authorize (h : Twin (Vacuumed s.now) s s') (uid : Nat) (kw : Kw) :
    Alike (Vacuumed s.now) (authorize P uid kw) (authorize P uid kw) s s' := by
  unfold authorize
  refine Alike.getContext_bind h fun clients => Alike.require_bind h fun _ => ?_
  refine Alike.ofOption_bind h fun client => Alike.require_bind h fun _ => ?_
  refine Alike.require_bind h fun _ => Alike.require_bind h fun _ => ?_
  refine Alike.require_bind h fun _ => Alike.ofOption_bind h fun method => ?_
  refine (alike_issue h _ _ _ _ _ _ _).bind fun rawCode db db' h => ?_
  exact Alike.ofExcept_bind h fun target => Alike.pure h _

theorem alike_tokenClientCredentials {db db' : State} {now : Int}
    (h : Twin (Vacuumed now) db db') (client : Row Client) (clientSecret : Json) (kw : Kw) :
    Alike (Vacuumed now) (tokenClientCredentials P client clientSecret kw)
      (tokenClientCredentials P client clientSecret kw) db db' := by
  unfold tokenClientCredentials
  refine Alike.require_bind h fun _ => Alike.ofExcept_bind h fun ok => ?_
  refine Alike.require_bind h fun _ => ?_
  exact (alike_issue h _ _ _ _ _ _ _).bind fun rawAccess db db' h => Alike.pure h _

theorem alike_tokenAuthorizationCode {db db' : State} (h : Twin (Vacuumed db.now) db db')
    (client : Row Client) (kw : Kw) :
    Alike (Vacuumed db.now) (tokenAuthorizationCode P client kw)
      (tokenAuthorizationCode P client kw) db db' := by
  unfold tokenAuthorizationCode
  refine Alike.require_bind h fun _ => Alike.getRows_bind (Alike.getNow_bind h fun now hnow => ?_)
  subst hnow
  rw [lookup_vacuumed h.rows]
  refine Alike.ofExcept_bind h fun found => Alike.ofOption_bind h fun code => ?_
  refine Alike.ofExcept_bind h fun pkce => Alike.require_bind h fun _ => ?_
  refine (Alike.writeRow (vacuumed_kept _) h _ _).bind fun _ db db' h => ?_
  refine (alike_issue h _ _ _ _ _ _ _).bind fun rawAccess db db' h => ?_
  exact (alike_issue h _ _ _ _ _ _ _).bind fun rawRefresh db db' h => Alike.pure h _

theorem alike_tokenRefreshToken {db db' : State} (h : Twin (Vacuumed db.now) db db')
    (client : Row Client) (kw : Kw) :
    Alike (Vacuumed db.now) (tokenRefreshToken P client kw) (tokenRefreshToken P client kw)
      db db' := by
  unfold tokenRefreshToken
  refine Alike.require_bind h fun _ => Alike.getRows_bind (Alike.getNow_bind h fun now hnow => ?_)
  subst hnow
  rw [lookup_vacuumed h.rows]
  refine Alike.ofExcept_bind h fun found => Alike.ofOption_bind h fun refresh => ?_
  exact (alike_issue h _ _ _ _ _ _ _).bind fun rawAccess db db' h => Alike.pure h _

theorem alike_token (h : Twin (Vacuumed s.now) s s') (authorization : Option String) (kw : Kw) :
    Alike (Vacuumed s.now) (token P authorization kw) (token P authorization kw) s s' := by
  unfold token
  refine Alike.getContext_bind h fun clients => Alike.ofOption_bind h fun grant => ?_
  refine Alike.require_bind h fun _ => Alike.ofOption_bind h fun client => ?_
  refine Alike.require_bind h fun _ => ?_
  obtain ⟨r, hrun⟩ := run_checkClientSecretIfConfidential P client
    (extractClientCredentials authorization kw).2
  cases grant with
  | clientCredentials => exact alike_tokenClientCredentials h client _ kw
  | authorizationCode =>
    exact Alike.step_bind h (hrun s) (hrun s') fun _ _ => alike_tokenAuthorizationCode h client kw
  | refreshToken =>
    exact Alike.step_bind h (hrun s) (hrun s') fun _ _ => alike_tokenRefreshToken h client kw

/-! ## Revocation -/

/-- The states of the two runs. -/
structure Beside (P : Platform) (s s' : State) : Prop where
  twin : Twin (Vacuumed s.now) s s'
  separated : Separated P s.drawn s.nextId s.rows
  separated' : Separated P s'.drawn s'.nextId s'.rows

/-- A row that is found in one table is found in every separated table that has it. -/
theorem findByRaw_of_found (hP : P.Exact) {d n : Nat} {rows rows' : List (Row Token)}
    (hsep : Separated P d n rows) {raw : Json} {cond : Token → Bool} {r : Row Token}
    (h : findByRaw P rows' raw cond = .ok (some r)) (hr : r ∈ rows) :
    findByRaw P rows raw cond = .ok (some r) := by
  obtain ⟨-, hcond, text, rfl, hverify⟩ := findByRaw_some h
  obtain ⟨-, i, -, hmade⟩ := hsep.known r hr
  rw [hmade.of_verify hP hverify]
  exact findByRaw_of_made hP hsep hr hcond hmade

/-- The lookup for a revocation finds the same row, or one that collections deleted. -/
theorem lookupForRevoke_vacuumed (hP : P.Exact) (h : Beside P s s') (raw : Json) (client : Nat) :
    lookupForRevoke P s.rows raw client = lookupForRevoke P s'.rows raw client ∨
      lookupForRevoke P s.rows raw client = .ok none ∧
        ∃ r, lookupForRevoke P s'.rows raw client = .ok (some r) ∧ r ∉ s.rows ∧ r ∈ s'.rows := by
  have hforth : ∀ {r}, lookupForRevoke P s.rows raw client = .ok (some r) →
      lookupForRevoke P s'.rows raw client = .ok (some r) := fun hfound =>
    findByRaw_of_found hP h.separated' hfound (h.twin.rows.mem (lookupForRevoke_some hfound).1)
  have hback : ∀ {r}, lookupForRevoke P s'.rows raw client = .ok (some r) → r ∈ s.rows →
      lookupForRevoke P s.rows raw client = .ok (some r) := fun hfound hr =>
    findByRaw_of_found hP h.separated hfound hr
  cases hfound : lookupForRevoke P s.rows raw client with
  | error e => exact Or.inl (findByRaw_error hP h.separated hfound _ _).symm
  | ok found =>
    cases found with
    | some r => exact Or.inl (hforth hfound).symm
    | none =>
      cases hfound' : lookupForRevoke P s'.rows raw client with
      | error e => exact Or.inl (hfound.symm.trans (findByRaw_error hP h.separated' hfound' _ _))
      | ok found' =>
        cases found' with
        | none => exact Or.inl rfl
        | some r =>
          refine Or.inr ⟨rfl, r, rfl, fun hr => ?_, (lookupForRevoke_some hfound').1⟩
          exact absurd (hfound.symm.trans (hback hfound' hr)) (by simp)

/-- Revoking a row that collections deleted changes nothing else. -/
theorem vacuumed_revokeRows_of_dropped {now : Int} {rows rows' : List (Row Token)} {r : Row Token}
    (h : Vacuumed now rows rows') (hr : ∀ a ∈ rows, a.id ≠ r.id) :
    Vacuumed now rows (revokeRows (some r) rows') := by
  have hsame : revokeRows (some r) rows = rows := by
    rw [revokeRows_some]
    refine (List.map_congr_left fun a ha => ?_).trans (List.map_id rows)
    rw [if_neg (hr a ha), id]
  rw [← hsame]
  exact vacuumed_kept now (.upd r.id .revoked) _ _ (hsame.symm ▸ h)

/-- A revoke request is answered alike, whether its token was collected or not. -/
theorem revoke_beside (hP : P.Exact) (h : Beside P s s') (authorization : Option String)
    (kw : Kw) :
    ((revoke P authorization kw).transact s).2 = ((revoke P authorization kw).transact s').2 ∧
      Twin (Vacuumed s.now) ((revoke P authorization kw).transact s).1
        ((revoke P authorization kw).transact s').1 := by
  have hclient : revokeClient P s.ctx authorization kw = revokeClient P s'.ctx authorization kw := by
    rw [h.twin.ctx]
  rw [revoke_transact, revoke_transact, hclient]
  cases revokeClient P s'.ctx authorization kw with
  | error e => exact ⟨rfl, h.twin⟩
  | ok client =>
    dsimp only
    rcases lookupForRevoke_vacuumed hP h (kw.get "token") client.id with
      heq | ⟨hnone, r, hsome, hout, hin⟩
    · rw [heq]
      cases lookupForRevoke P s'.rows (kw.get "token") client.id with
      | error e => exact ⟨rfl, h.twin⟩
      | ok record =>
        exact ⟨rfl, h.twin.withRows ((vacuumed_kept _).applyOps _ h.twin.rows)⟩
    · rw [hnone, hsome]
      refine ⟨rfl, h.twin.withRows (vacuumed_revokeRows_of_dropped h.twin.rows ?_)⟩
      intro a ha hid
      exact hout (h.separated'.eq_of_id (h.twin.rows.mem ha) hin hid ▸ ha)

/-- What the check of an `action_revoke` comes to. -/
abbrev revokeAccess (u : User) (ids : List Nat) (rows : List (Row Token)) : Except Exn Unit :=
  Orm.accessResult tokenModel ⟨u, false⟩ .write ids rows

theorem actionRevoke_transact (P : Platform) (u : User) (ids : List Nat) (s : State) :
    (handle P (.actionRevoke u ids)).transact s =
      match revokeAccess u ids s.rows with
      | .ok _ =>
        ({ s with rows := applyOps (ids.map fun id => .upd id TokenWrite.revoked) s.rows },
          .ok .empty)
      | .error e => (s, .error e) := by
  unfold Prog.transact handle actionRevoke revokeAccess
  dsimp only
  rw [Prog.run_bind, Orm.run_write]
  cases Orm.accessResult tokenModel ⟨u, false⟩ .write ids s.rows <;> rfl

/-- In a separated table no row is listed twice. -/
theorem Separated.nodup {d n : Nat} {rows : List (Row Token)} (h : Separated P d n rows) :
    rows.Nodup :=
  h.apart.imp fun hrr heq => hrr.1 (congrArg Row.id heq)

/-- The named rows are the same in both tables when every one of them is in both. -/
theorem Beside.named_eq (h : Beside P s s') {ids : List Nat}
    (hfound : ∀ id ∈ ids, ∃ r ∈ s.rows, r.id = id) :
    (s.rows.filter fun r => ids.contains r.id) = s'.rows.filter fun r => ids.contains r.id := by
  refine (h.twin.rows.sharpen h.separated'.nodup).filter_eq ?_
  rintro r ⟨-, hin, hout⟩
  rw [← Bool.not_eq_true, List.contains_iff_mem]
  intro hid
  obtain ⟨kept, hkept, heq⟩ := hfound r.id hid
  exact hout (h.separated'.eq_of_id (h.twin.rows.mem hkept) hin heq ▸ hkept)

/-- The row of each id is there. -/
theorem found_iff {ids : List Nat} {rows : List (Row Token)} :
    (ids.all fun id => rows.any fun r => r.id == id) = true ↔
      ∀ id ∈ ids, ∃ r ∈ rows, r.id = id := by
  simp [List.all_eq_true, List.any_eq_true]

/-- The check comes to the same, unless the collections alone deleted a row that is named. -/
theorem revokeAccess_eq (h : Beside P s s') {u : User} {ids : List Nat}
    (hmiss : ¬ Action.MissesRow s s' (.step (.request (.actionRevoke u ids)))) :
    revokeAccess u ids s.rows = revokeAccess u ids s'.rows := by
  unfold revokeAccess Orm.accessResult
  rw [Bool.false_or]
  by_cases haccess : tokenModel.security.hasAccess u .write = true
  · rw [if_pos haccess, if_pos haccess]
    by_cases hfound' : ∀ id ∈ ids, ∃ r ∈ s'.rows, r.id = id
    · have hfound : ∀ id ∈ ids, ∃ r ∈ s.rows, r.id = id := by
        by_contra hnot
        push Not at hnot
        exact hmiss ⟨haccess, hfound', hnot⟩
      rw [if_pos (found_iff.mpr hfound), if_pos (found_iff.mpr hfound'), h.named_eq hfound]
    · rw [if_neg (mt found_iff.mp hfound'), if_neg (mt found_iff.mp fun hfound => hfound' ?_)]
      intro id hid
      obtain ⟨r, hr, heq⟩ := hfound id hid
      exact ⟨r, h.twin.rows.mem hr, heq⟩
  · rw [if_neg haccess, if_neg haccess]

/-- An `action_revoke` that misses a row raises `MissingError`, and otherwise would not. -/
theorem revokeAccess_of_missesRow {u : User} {ids : List Nat}
    (h : Action.MissesRow s s' (.step (.request (.actionRevoke u ids)))) :
    revokeAccess u ids s.rows = .error (Orm.missingError tokenModel) ∧
      revokeAccess u ids s'.rows ≠ .error (Orm.missingError tokenModel) := by
  obtain ⟨haccess, hfound', id, hid, hmissing⟩ := h
  have hnot : ¬ ∀ id ∈ ids, ∃ r ∈ s.rows, r.id = id := by
    intro hfound
    obtain ⟨r, hr, heq⟩ := hfound id hid
    exact hmissing r hr heq
  unfold revokeAccess Orm.accessResult
  rw [Bool.false_or, if_pos haccess, if_pos haccess, if_neg (mt found_iff.mp hnot),
    if_pos (found_iff.mpr hfound')]
  refine ⟨rfl, ?_⟩
  split
  · intro heq
    cases heq
  · intro heq
    cases heq

/-! ## One action of both runs -/

/-- The ids a collection deletes. -/
def expiredIds (s : State) : List Nat :=
  (s.rows.filter fun r => r.val.expirationDate < s.now).map (·.id)

/-- The state after a collection. -/
theorem collected_next (P : Platform) (s : State) :
    (server P).next s (.request .gcExpiredOauthToken) =
      { s with rows := s.rows.filter fun r => !(expiredIds s).contains r.id } := by
  have hrun : gcExpiredOauthToken.run s =
      (.ok (), { s with rows := applyOps ((expiredIds s).map .del) s.rows }) :=
    Prog.run_unlinkAll s _
  show ((handle P .gcExpiredOauthToken).transact s).1 = _
  unfold Prog.transact handle
  dsimp only
  rw [Prog.run_bind, hrun, applyOps_del]
  rfl

/-- A collection deletes expired rows only. -/
theorem beside_collected (hP : P.Exact) (h : Beside P s s') :
    Beside P ((server P).next s (.request .gcExpiredOauthToken)) s' where
  separated := separated_next hP _ h.separated
  separated' := h.separated'
  twin := by
    rw [collected_next]
    refine { h.twin with rows := h.twin.rows.filter_left fun r hr hgone => ?_ }
    rw [Bool.not_eq_false', List.contains_iff_mem] at hgone
    obtain ⟨expired, hexpired, hid⟩ := List.mem_map.mp hgone
    obtain ⟨hin, hdate⟩ := List.mem_filter.mp hexpired
    rw [← h.separated.eq_of_id hin hr hid]
    exact of_decide_eq_true hdate

theorem actionRevoke_beside (h : Beside P s s') {u : User} {ids : List Nat}
    (hmiss : ¬ Action.MissesRow s s' (.step (.request (.actionRevoke u ids)))) :
    ((handle P (.actionRevoke u ids)).transact s).2 =
        ((handle P (.actionRevoke u ids)).transact s').2 ∧
      Twin (Vacuumed s.now) ((handle P (.actionRevoke u ids)).transact s).1
        ((handle P (.actionRevoke u ids)).transact s').1 := by
  rw [actionRevoke_transact, actionRevoke_transact, revokeAccess_eq h hmiss]
  cases revokeAccess u ids s'.rows with
  | ok _ => exact ⟨rfl, h.twin.withRows ((vacuumed_kept _).applyOps _ h.twin.rows)⟩
  | error e => exact ⟨rfl, h.twin⟩

/-- A request other than a collection is answered alike. -/
theorem request_beside (hP : P.Exact) (h : Beside P s s') {q : Request}
    (hvisible : (Action.step (.request q)).visible = true)
    (hmiss : ¬ Action.MissesRow s s' (.step (.request q))) :
    ((handle P q).transact s).2 = ((handle P q).transact s').2 ∧
      Twin (Vacuumed s.now) ((handle P q).transact s).1 ((handle P q).transact s').1 := by
  cases q with
  | authorize uid kw => exact (alike_authorize h.twin uid kw).transact h.twin
  | token authorization kw => exact (alike_token h.twin authorization kw).transact h.twin
  | revoke authorization kw => exact revoke_beside hP h authorization kw
  | actionRevoke u ids => exact actionRevoke_beside h hmiss
  | gcExpiredOauthToken => cases hvisible

/-- A credential is verified alike. -/
theorem restAuthVerify_beside (h : Beside P s s') (publicUser : Nat) (credential : String) :
    restAuthVerify P publicUser s.ctx s.rows s.now credential =
      restAuthVerify P publicUser s'.ctx s'.rows s'.now credential := by
  unfold restAuthVerify
  rw [lookup_vacuumed h.twin.rows, h.twin.ctx, h.twin.now]

/-- An action that misses no row is answered alike and leaves the states beside each other. -/
theorem action_beside (hP : P.Exact) (publicUser : Nat) (h : Beside P s s') {a : Action}
    (hvisible : a.visible = true) (hforward : a.Forward s) (hmiss : ¬ a.MissesRow s s') :
    (deployment P publicUser).answer s a = (deployment P publicUser).answer s' a ∧
      Beside P ((deployment P publicUser).next s a) ((deployment P publicUser).next s' a) := by
  cases a with
  | verify credential => exact ⟨congrArg Observed.verified (restAuthVerify_beside h _ _), h⟩
  | step a =>
    suffices hstep : (server P).answer s a = (server P).answer s' a ∧
        Twin (Vacuumed ((server P).next s a).now) ((server P).next s a) ((server P).next s' a) from
      ⟨congrArg Observed.answer hstep.1, hstep.2, separated_next hP a h.separated,
        separated_next hP a h.separated'⟩
    cases a with
    | tick now =>
      have hle : s.now ≤ now := hforward
      refine ⟨rfl, { h.twin with rows := h.twin.rows.mono fun r hr => ?_, now := rfl }⟩
      show r.val.expirationDate < now
      omega
    | editClients clients =>
      exact ⟨rfl, { h.twin with ctx := rfl, rows := h.twin.rows.filter _ }⟩
    | request q =>
      obtain ⟨hans, htwin⟩ := request_beside hP h hvisible hmiss
      refine ⟨congrArg some hans, ?_⟩
      rw [show ((server P).next s (.request q)).now = s.now from
        (Prog.transact_frame (handle P q) s).2.1]
      exact htwin

theorem Action.eq_of_missesRow {a : Action} (h : a.MissesRow s s') :
    ∃ u ids, a = step (.request (.actionRevoke u ids)) := by
  unfold MissesRow at h
  split at h
  · next u ids => exact ⟨u, ids, rfl⟩
  · exact h.elim

theorem Action.eq_of_not_visible {a : Action} (h : a.visible = false) :
    a = step (.request .gcExpiredOauthToken) := by
  unfold visible at h
  split at h
  · rfl
  · cases h

/-- An action that misses a row raises `MissingError`, and would not without the collections. -/
theorem answer_of_missesRow (P : Platform) (publicUser : Nat) {a : Action}
    (h : a.MissesRow s s') :
    (deployment P publicUser).answer s a =
        .answer (some (.error (Orm.missingError tokenModel))) ∧
      (deployment P publicUser).answer s' a ≠
        .answer (some (.error (Orm.missingError tokenModel))) := by
  obtain ⟨u, ids, rfl⟩ := a.eq_of_missesRow h
  obtain ⟨hmissing, hother⟩ := revokeAccess_of_missesRow h
  have hanswer : ∀ s : State, (deployment P publicUser).answer s
      (.step (.request (.actionRevoke u ids))) =
        .answer (some ((handle P (.actionRevoke u ids)).transact s).2) := fun _ => rfl
  rw [hanswer, hanswer, actionRevoke_transact, actionRevoke_transact, hmissing]
  refine ⟨rfl, fun heq => hother ?_⟩
  cases haccess : revokeAccess u ids s'.rows with
  | ok _ =>
    rw [haccess] at heq
    cases heq
  | error e =>
    rw [haccess] at heq
    cases heq
    rfl

/-! ## Runs -/

/-- **The vacuum.**  In a run whose clock is not set back, every other action is answered as it
would be without the collections, exactly if no `action_revoke` misses a row that collections
alone deleted; one that does is answered with a `MissingError`. -/
theorem vacuum_observed_iff (P : Platform) (hP : P.Exact) (publicUser : Nat) (clients : Clients)
    (now : Int) (as : List Action)
    (hclock : (deployment P publicUser).Every Action.Forward (initial clients now) as) :
    ((deployment P publicUser).observed Action.visible (initial clients now) as =
        (deployment P publicUser).observed Action.visible (initial clients now)
          (as.filter Action.visible) ↔
      ∀ before a after, as = before ++ a :: after →
        ¬ a.MissesRow ((deployment P publicUser).exec (initial clients now) before)
          ((deployment P publicUser).exec (initial clients now)
            (before.filter Action.visible))) ∧
    ∀ before a after, as = before ++ a :: after →
      a.MissesRow ((deployment P publicUser).exec (initial clients now) before)
        ((deployment P publicUser).exec (initial clients now) (before.filter Action.visible)) →
      (deployment P publicUser).answer
          ((deployment P publicUser).exec (initial clients now) before) a =
        .answer (some (.error (Orm.missingError tokenModel))) := by
  have hstart : Beside P (initial clients now) (initial clients now) :=
    ⟨⟨rfl, .refl _, rfl, rfl, rfl⟩, separated_run hP clients now [], separated_run hP clients now []⟩
  refine ⟨?_, fun before a after _ h => (answer_of_missesRow P publicUser h).1⟩
  rw [(deployment P publicUser).observed_filter_iff (R := Beside P)
    (C := fun s s' a => ¬ a.MissesRow s s') ?_ ?_ ?_ hstart hclock]
  · refine forall_congr' fun before => forall_congr' fun a => forall_congr' fun after =>
      imp_congr_right fun _ => ⟨fun h hmiss => ?_, fun h _ => h⟩
    obtain ⟨u, ids, rfl⟩ := a.eq_of_missesRow hmiss
    exact h rfl hmiss
  · intro s s' a h hhidden _
    rw [a.eq_of_not_visible hhidden]
    exact beside_collected hP h
  · intro s s' a h hvisible hforward hmiss
    exact action_beside hP publicUser h hvisible hforward hmiss
  · intro s s' a _ _ hmiss heq
    obtain ⟨hmissing, hother⟩ := answer_of_missesRow P publicUser (not_not.mp hmiss)
    exact hother (heq ▸ hmissing)

/-- User 7 redeems a code; the access token is looked at and collected at its last instant, and
again after it. -/
def collectedRun : List Action :=
  [.step (authorizeWeb "read"), .step (redeemWeb 0), .step (.tick 3600),
    .step (.request .gcExpiredOauthToken), .verify (rawValue Platform.sample 1),
    .step (.tick 3601), .step (.request .gcExpiredOauthToken),
    .step (.request (.revoke none (revokeWebKw 1))), .verify (rawValue Platform.sample 1)]

theorem vacuum_observed_collectedRun :
    (deployment Platform.sample 3).observed Action.visible (initial [webClient] 0) collectedRun =
      (deployment Platform.sample 3).observed Action.visible (initial [webClient] 0)
        (collectedRun.filter Action.visible) := by
  refine (vacuum_observed_iff Platform.sample Platform.sample_exact 3 [webClient] 0 collectedRun
    ?_).1.mpr ?_
  · exact ⟨trivial, trivial, by decide, trivial, trivial, by decide, trivial, trivial, trivial,
      trivial⟩
  · intro before a after he hmiss
    obtain ⟨u, ids, rfl⟩ := a.eq_of_missesRow hmiss
    have hin : Action.step (.request (.actionRevoke u ids)) ∈ collectedRun := by
      rw [he]
      simp
    simp [collectedRun, authorizeWeb, authorizeWebRequest, redeemWeb, tokenWeb, tokenWebRequest]
      at hin

/-- A user of the system group revokes the access token from the list after a collection. -/
def revokedLate : List Action :=
  [.step (authorizeWeb "read"), .step (redeemWeb 0), .step (.tick 3601),
    .step (.request .gcExpiredOauthToken),
    .step (.request (.actionRevoke ⟨7, [.user, .system]⟩ [1]))]

/-- The response is an error. -/
def Observed.failed : Observed → Bool
  | answer (some (.error _)) => true
  | verified (.error _) => true
  | _ => false

theorem vacuum_observed_revokedLate :
    (deployment Platform.sample 3).Every Action.Forward (initial [webClient] 0) revokedLate ∧
      (deployment Platform.sample 3).observed Action.visible (initial [webClient] 0) revokedLate ≠
        (deployment Platform.sample 3).observed Action.visible (initial [webClient] 0)
          (revokedLate.filter Action.visible) := by
  refine ⟨⟨trivial, trivial, by decide, trivial, trivial, trivial⟩, fun h => ?_⟩
  have hfailed := congrArg (List.map Observed.failed) h
  exact absurd hfailed (by decide +kernel)

end SsiRest.Oauth
