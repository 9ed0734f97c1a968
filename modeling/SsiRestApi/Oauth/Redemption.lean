import SsiRestApi.Lib.Isolation
import SsiRestApi.Oauth.Effects

/-!
# A code is redeemed at most once

Any number of requests run against the token table at once, each in a snapshot
transaction that starts over on a conflict.  A token request marks the code row
revoked before it inserts its tokens, so two redemptions of one row write the
same row, and the second to commit would have to have read it unrevoked after
the first had revoked it.  One code has one row: its text was drawn by one
committed authorize call, which created that row only.

    Ledger: what every state knows of the commits so far    (ledger_run)
    no two commits redeem the same code                     (code_redeemed_once)
-/

namespace SsiRest.Oauth

open Py Tx

abbrev Commit := Tx.Commit Request Clients Token TokenWrite Reply

abbrev Deployment := Sys Request Clients Token TokenWrite Exn Reply

/-- A token request with the authorization_code grant. -/
def IsExchange (q : Request) : Prop :=
  ∃ authorization kw, q = .token authorization kw ∧ grantType kw = some .authorizationCode

/-- An exchange that presents the code `raw`. -/
def PresentsCode (q : Request) (raw : String) : Prop :=
  ∃ authorization kw, q = .token authorization kw ∧
    grantType kw = some .authorizationCode ∧ kw.get "code" = .str raw

/-- The committed authorize call redirected with the code `raw`, a text it drew, and created
its row `id`. -/
def IssuesCode (P : Platform) (com : Commit) (raw : String) (id : Nat) : Prop :=
  ∃ uid kw target, com.req = .authorize uid kw ∧ com.result = .redirect target ∧
    P.appendQuery (kw.get "redirect_uri") [("code", .str raw), ("state", kw.get "state")] =
      .ok target ∧
    ∃ i ∈ com.mark.draws, raw = rawValue P i ∧
      ∃ val, com.mark.log = [.ins id val] ∧ val.tokenHash = P.crypt.hash i raw

/-- The committed exchange answered with tokens for the code `raw`: its client's lookup in
its snapshot found the row `code`, and it revoked that row. -/
def Redeems (P : Platform) (com : Commit) (raw : String) (code : Row Token) : Prop :=
  ∃ authorization kw client now body, com.req = .token authorization kw ∧
    grantType kw = some .authorizationCode ∧ kw.get "code" = .str raw ∧
    AuthenticatedAs P com.ctx authorization kw client ∧
    lookup P com.snapshot now (.str raw) .code (some client.id) = .ok (some code) ∧
    com.result = .token body ∧ RowOp.upd code.id .revoked ∈ com.mark.log

variable {P : Platform}

theorem PresentsCode.unique {q : Request} {raw raw' : String} (h : PresentsCode q raw)
    (h' : PresentsCode q raw') : raw = raw' := by
  obtain ⟨authorization, kw, rfl, -, hraw⟩ := h
  obtain ⟨_, _, hreq, -, hraw'⟩ := h'
  cases hreq
  rw [hraw] at hraw'
  exact Json.str.inj hraw'

theorem PresentsCode.isExchange {q : Request} {raw : String} (h : PresentsCode q raw) :
    IsExchange q := by
  obtain ⟨authorization, kw, hreq, hgrant, -⟩ := h
  exact ⟨authorization, kw, hreq, hgrant⟩

theorem Redeems.presents {com : Commit} {raw : String} {code : Row Token}
    (h : Redeems P com raw code) : PresentsCode com.req raw := by
  obtain ⟨authorization, kw, _, _, _, hreq, hgrant, hraw, -⟩ := h
  exact ⟨authorization, kw, hreq, hgrant, hraw⟩

theorem Redeems.touches {com : Commit} {raw : String} {code : Row Token}
    (h : Redeems P com raw code) : Touches com.mark.log code.id := by
  obtain ⟨_, _, _, _, _, -, -, -, -, -, -, hupd⟩ := h
  exact ⟨_, hupd, rfl, rfl⟩

theorem IssuesCode.inserts {com : Commit} {raw : String} {id : Nat}
    (h : IssuesCode P com raw id) : Inserts com.mark.log id := by
  obtain ⟨_, _, _, -, -, -, _, -, -, val, hlog, -⟩ := h
  exact ⟨val, hlog ▸ List.mem_cons_self⟩

/-- An authorize call creates one row. -/
theorem IssuesCode.id_unique {com : Commit} {raw raw' : String} {id id' : Nat}
    (h : IssuesCode P com raw id) (h' : IssuesCode P com raw' id') : id = id' := by
  obtain ⟨_, _, _, -, -, -, _, -, -, val, hlog, -⟩ := h
  obtain ⟨_, _, _, -, -, -, _, -, -, val', hlog', -⟩ := h'
  rw [hlog] at hlog'
  simp only [List.cons.injEq, RowOp.ins.injEq, and_true] at hlog'
  exact hlog'.1

/-! ## One commit -/

/-- A hash of one text is no hash of another. -/
theorem hash_inj (hP : P.Exact) {i j : Nat} {raw raw' : String}
    (h : P.crypt.hash i raw = P.crypt.hash j raw') : raw = raw' := by
  have hv := hP.crypt.verify_hash i raw raw
  rw [h, hP.crypt.verify_hash] at hv
  simpa using hv

section Step

variable {s s' : Deployment} {com : Commit}

/-- What a committed transaction did to its snapshot. -/
theorem committed_effect (h : Committed (handle P) s s' com) :
    (∃ d n e f, Effect P com.ctx com.snapshot d n e f com.req com.result com.mark.log) ∧
      Drawn P com.mark := by
  obtain ⟨d, n, hpost⟩ := h.exec
  obtain ⟨heff, hdrawn⟩ := hpost _ (handle_effect (P := P) com.req d n) com.result rfl
  exact ⟨⟨d, n, _, _, heff⟩, hdrawn⟩

/-- A committed exchange redeems a code. -/
theorem redeems_of_exchange (h : Committed (handle P) s s' com) (hx : IsExchange com.req) :
    ∃ raw code, Redeems P com raw code := by
  obtain ⟨⟨d, n, e, f, heff⟩, -⟩ := committed_effect h
  obtain ⟨authorization, kw, hreq, hgrant⟩ := hx
  unfold Redeems
  generalize com.req = q at heff hreq
  generalize com.result = reply at heff
  generalize com.mark.log = log at heff
  subst hreq
  cases heff with
  | redeem _ hclient _ hcode =>
    obtain ⟨-, -, raw, hraw, -⟩ := lookup_some hcode
    rw [hraw] at hcode
    exact ⟨raw, _, authorization, kw, _, _, _, rfl, hgrant, hraw, hclient, hcode, rfl,
      List.mem_cons_self⟩
  | clientCredentials hgrant' =>
    rw [hgrant] at hgrant'
    cases hgrant'
  | refresh hgrant' =>
    rw [hgrant] at hgrant'
    cases hgrant'

/-- The row of a redeemed code is in the table, unrevoked, when the redemption commits. -/
theorem mem_of_redeems (h : Committed (handle P) s s' com) {raw : String} {code : Row Token}
    (hr : Redeems P com raw code) :
    code ∈ s.rows ∧ code.val.tokenType = .code ∧ code.val.revoked = false ∧
      P.crypt.verify raw code.val.tokenHash = some true := by
  have hrows := h.current code.id hr.touches
  obtain ⟨_, _, _, _, _, -, -, -, -, hcode, -, -⟩ := hr
  obtain ⟨hmem, hlive, raw', hraw, hv⟩ := lookup_some hcode
  cases hraw
  have hcode : code ∈ rowsWith code.id s.rows := by
    rw [hrows]
    exact List.mem_filter.mpr ⟨hmem, by simp⟩
  exact ⟨(List.mem_filter.mp hcode).1, hlive.tokenType, hlive.unrevoked, hv⟩

/-- A commit that creates a code row is an authorize call that hands out its text. -/
theorem issuesCode_of_inserts (hP : P.Exact) (h : Committed (handle P) s s' com) {id : Nat}
    {val : Token} (hv : RowOp.ins id val ∈ com.mark.log) (hcode : val.tokenType = .code) :
    ∃ raw, IssuesCode P com raw id ∧ ∃ i, val.tokenHash = P.crypt.hash i raw := by
  obtain ⟨⟨d, n, e, f, heff⟩, hdrawn⟩ := committed_effect h
  obtain ⟨i', hi', hhash⟩ := hdrawn id val hv
  unfold IssuesCode
  generalize com.req = q at heff
  generalize com.result = reply at heff
  generalize com.mark.log = log at heff hv
  cases heff with
  | @authorize uid kw client target method i _ now hchecks htarget =>
    cases List.mem_singleton.mp hv
    -- the text its hash was made of is the one it drew
    obtain rfl : i = i' := rawValue_inj hP (hash_inj hP hhash)
    exact ⟨rawValue P i, ⟨uid, kw, target, rfl, rfl, htarget, i, hi', rfl, _, rfl, rfl⟩, i, rfl⟩
  | redeem =>
    simp only [List.mem_cons, List.not_mem_nil, or_false, reduceCtorEq, false_or,
      RowOp.ins.injEq] at hv
    rcases hv with ⟨-, rfl⟩ | ⟨-, rfl⟩ <;> cases hcode
  | clientCredentials | refresh =>
    cases List.mem_singleton.mp hv
    cases hcode
  | revoke | actionRevoke | gcExpiredOauthToken => simp at hv

/-- A commit that creates a row other than a code is answered with tokens. -/
theorem result_of_inserts (h : Committed (handle P) s s' com) {id : Nat} {val : Token}
    (hv : RowOp.ins id val ∈ com.mark.log) (hne : val.tokenType ≠ .code) :
    ∃ body, com.result = .token body := by
  obtain ⟨⟨d, n, e, f, heff⟩, -⟩ := committed_effect h
  generalize com.req = q at heff
  generalize com.mark.log = log at heff hv
  generalize com.result = reply at heff
  cases heff with
  | authorize =>
    cases List.mem_singleton.mp hv
    exact absurd rfl hne
  | redeem | clientCredentials | refresh => exact ⟨_, rfl⟩
  | revoke | actionRevoke | gcExpiredOauthToken => simp at hv

end Step

/-! ## Revoked rows -/

/-- Every row with this id is revoked. -/
def Spent (id : Nat) (rows : List (Row Token)) : Prop :=
  ∀ r ∈ rows, r.id = id → r.val.revoked = true

theorem Spent.apply {id : Nat} {rows : List (Row Token)} (h : Spent id rows)
    {op : RowOp Token TokenWrite} (hnew : ∀ val, op ≠ .ins id val) : Spent id (op.apply rows) := by
  intro r hr hid
  rcases mem_apply_rel (R := fun v w => v.revoked = true → w.revoked = true) (fun _ h => h)
    (fun _ _ _ => rfl) hr with ⟨r', hr', he, hR⟩ | hins
  · exact hR (h r' hr' (he.trans hid))
  · exact absurd (hid ▸ hins) (hnew r.val)

/-- No log that does not create the row makes it usable again. -/
theorem Spent.applyOps {id : Nat} {rows : List (Row Token)} (h : Spent id rows)
    {log : List (RowOp Token TokenWrite)} (hnew : ¬ Inserts log id) :
    Spent id (applyOps log rows) :=
  applyOps_induction (fun _ hop _ h => h.apply fun val he => hnew ⟨val, he ▸ hop⟩) h

/-- One operation on a row revokes or deletes it. -/
theorem spent_apply {op : RowOp Token TokenWrite} (hins : op.isIns = false)
    (rows : List (Row Token)) : Spent op.target (op.apply rows) := by
  intro r hr hid
  cases op with
  | ins id val => cases hins
  | upd id u =>
    obtain ⟨r', -, rfl⟩ := List.mem_map.mp hr
    split
    · rfl
    · next hne =>
      rw [if_neg hne] at hid
      exact absurd hid hne
  | del id => exact absurd hid (by simpa [RowOp.target] using (List.mem_filter.mp hr).2)

/-- After a log that writes a row it does not create, the row is spent. -/
theorem spent_of_touches {log : List (RowOp Token TokenWrite)} {id : Nat} (h : Touches log id)
    (hnew : ¬ Inserts log id) (rows : List (Row Token)) : Spent id (applyOps log rows) := by
  obtain ⟨op, hop, hins, rfl⟩ := h
  obtain ⟨before, after, rfl⟩ := List.append_of_mem hop
  have hsplit : Tx.applyOps (before ++ op :: after) rows =
      Tx.applyOps after (op.apply (Tx.applyOps before rows)) := by
    simp [Tx.applyOps]
  rw [hsplit]
  refine (spent_apply hins _).applyOps ?_
  rintro ⟨val, hv⟩
  exact hnew ⟨val, List.mem_append_right _ (List.mem_cons_of_mem _ hv)⟩

/-! ## The invariant -/

/-- The commit created the row: as an authorize call, if it is a code's, and in a request
answered with tokens otherwise. -/
structure CreatesRow (P : Platform) (com : Commit) (id : Nat) (t : Token) : Prop where
  inserts : Inserts com.mark.log id
  code : t.tokenType = .code →
    ∃ raw, IssuesCode P com raw id ∧ ∃ i, t.tokenHash = P.crypt.hash i raw
  token : t.tokenType ≠ .code → ∃ body, com.result = .token body

/-- What every state knows of the commits so far. -/
structure Ledger (P : Platform) (s : Deployment) : Prop where
  /-- The rows the commits created and the texts they drew are theirs for good. -/
  born : ∀ com ∈ s.history, ∀ x, com.mark.Holds x → Born s x
  /-- No row was created twice and no text drawn twice. -/
  disjoint : s.history.Pairwise fun com com' => ∀ x, com.mark.Holds x → ¬ com'.mark.Holds x
  rows : ∀ r ∈ s.rows, ∃ com ∈ s.history, CreatesRow P com r.id r.val
  exchange : ∀ com ∈ s.history, IsExchange com.req → ∃ raw code, Redeems P com raw code
  /-- A redeemed code was issued. -/
  issued : ∀ com ∈ s.history, ∀ raw code, Redeems P com raw code →
    ∃ com₀ ∈ s.history, IssuesCode P com₀ raw code.id
  /-- The row of a redeemed code stays revoked, or is gone. -/
  spent : ∀ com ∈ s.history, ∀ raw code, Redeems P com raw code → Spent code.id s.rows
  redeemed : s.history.Pairwise fun com com' => ∀ raw raw' code code',
    Redeems P com raw code → Redeems P com' raw' code' → code.id ≠ code'.id

theorem ledger_empty (clients : Clients) (now : Int) : Ledger P (Sys.empty clients now) where
  born _ h := by cases h
  disjoint := List.Pairwise.nil
  rows _ h := by cases h
  exchange _ h := by cases h
  issued _ h := by cases h
  spent _ h := by cases h
  redeemed := List.Pairwise.nil

theorem Ledger.quiet {s s' : Deployment} (h : Ledger P s) (hq : Quiet s s')
    (hborn : ∀ x, Born s x → Born s' x) : Ledger P s' where
  born := by
    rw [hq.history]
    exact fun com hcom x hx => hborn x (h.born com hcom x hx)
  disjoint := by
    rw [hq.history]
    exact h.disjoint
  rows := by
    rw [hq.history, hq.rows]
    exact h.rows
  exchange := by
    rw [hq.history]
    exact h.exchange
  issued := by
    rw [hq.history]
    exact h.issued
  spent := by
    rw [hq.history, hq.rows]
    exact h.spent
  redeemed := by
    rw [hq.history]
    exact h.redeemed

section Commit

variable {s s' : Deployment} {com : Commit}

/-- A row of a commit has its type and hash from a row before or from one it created. -/
theorem row_of_applyOps {log : List (RowOp Token TokenWrite)} {rows : List (Row Token)}
    {r : Row Token} (hr : r ∈ applyOps log rows) :
    (∃ r' ∈ rows, r'.id = r.id ∧ r'.val.tokenType = r.val.tokenType ∧
        r'.val.tokenHash = r.val.tokenHash) ∨
      ∃ val, RowOp.ins r.id val ∈ log ∧ val.tokenType = r.val.tokenType ∧
        val.tokenHash = r.val.tokenHash :=
  mem_applyOps_rel (R := fun v w => v.tokenType = w.tokenType ∧ v.tokenHash = w.tokenHash)
    (fun _ => ⟨rfl, rfl⟩) (fun _ _ _ h => h) hr

theorem CreatesRow.congr {id : Nat} {t t' : Token} (h : CreatesRow P com id t)
    (htype : t.tokenType = t'.tokenType) (hhash : t.tokenHash = t'.tokenHash) :
    CreatesRow P com id t' where
  inserts := h.inserts
  code := htype ▸ hhash ▸ h.code
  token := htype ▸ h.token

theorem createsRow_of_inserts (hP : P.Exact) (hc : Committed (handle P) s s' com) {id : Nat}
    {val : Token} (hv : RowOp.ins id val ∈ com.mark.log) : CreatesRow P com id val where
  inserts := ⟨val, hv⟩
  code := issuesCode_of_inserts hP hc hv
  token := result_of_inserts hc hv

/-- The code a commit redeems was issued by an earlier one. -/
theorem Ledger.issued_of_redeems (hP : P.Exact) (h : Ledger P s)
    (hc : Committed (handle P) s s' com) {raw : String} {code : Row Token}
    (hr : Redeems P com raw code) : ∃ com₀ ∈ s.history, IssuesCode P com₀ raw code.id := by
  obtain ⟨hmem, htype, -, hv⟩ := mem_of_redeems hc hr
  obtain ⟨com₀, hcom₀, hcreates⟩ := h.rows code hmem
  obtain ⟨raw₀, hissues, i, hhash⟩ := hcreates.code htype
  have hraw : raw = raw₀ := by
    rw [hhash, hP.crypt.verify_hash] at hv
    simpa using hv
  exact ⟨com₀, hcom₀, hraw ▸ hissues⟩

theorem Ledger.commit (hP : P.Exact) (h : Ledger P s) (hc : Committed (handle P) s s' com)
    (hborn : ∀ x, Born s x → Born s' x) : Ledger P s' where
  born := by
    rw [hc.history]
    intro com' hcom' x hx
    rcases List.mem_append.mp hcom' with hcom' | hcom'
    · exact hborn x (h.born com' hcom' x hx)
    · rw [List.mem_singleton.mp hcom'] at hx
      exact (hc.came x hx).2
  disjoint := by
    rw [hc.history, List.pairwise_append]
    refine ⟨h.disjoint, List.pairwise_singleton _ _, fun com' hcom' c hcc x hx hx' => ?_⟩
    rw [List.mem_singleton.mp hcc] at hx'
    exact (hc.came x hx').1 (h.born com' hcom' x hx)
  rows := by
    rw [hc.history, hc.rows]
    intro r hr
    rcases row_of_applyOps hr with ⟨r', hr', he, htype, hhash⟩ | ⟨val, hv, htype, hhash⟩
    · obtain ⟨com', hcom', hcreates⟩ := h.rows r' hr'
      exact ⟨com', List.mem_append_left _ hcom', he ▸ hcreates.congr htype hhash⟩
    · exact ⟨com, List.mem_append_right _ List.mem_cons_self,
        (createsRow_of_inserts hP hc hv).congr htype hhash⟩
  exchange := by
    rw [hc.history]
    intro com' hcom' hx
    rcases List.mem_append.mp hcom' with hcom' | hcom'
    · exact h.exchange com' hcom' hx
    · rw [List.mem_singleton.mp hcom'] at hx ⊢
      exact redeems_of_exchange hc hx
  issued := by
    rw [hc.history]
    intro com' hcom' raw code hr
    have hissued : ∃ com₀ ∈ s.history, IssuesCode P com₀ raw code.id := by
      rcases List.mem_append.mp hcom' with hcom' | hcom'
      · exact h.issued com' hcom' raw code hr
      · rw [List.mem_singleton.mp hcom'] at hr
        exact h.issued_of_redeems hP hc hr
    exact hissued.imp fun com₀ h₀ => h₀.imp_left (List.mem_append_left _)
  spent := by
    rw [hc.history, hc.rows]
    intro com' hcom' raw code hr
    rcases List.mem_append.mp hcom' with hcom' | hcom'
    · -- the row belongs to an earlier commit, so this one does not create it again
      obtain ⟨com₀, hcom₀, hissues⟩ := h.issued com' hcom' raw code hr
      refine (h.spent com' hcom' raw code hr).applyOps fun hins => ?_
      exact (hc.came (.row code.id) hins).1 (h.born com₀ hcom₀ (.row code.id) hissues.inserts)
    · rw [List.mem_singleton.mp hcom'] at hr
      refine spent_of_touches hr.touches (fun hins => ?_) _
      exact (hc.came (.row code.id) hins).1 (hc.born code (mem_of_redeems hc hr).1)
  redeemed := by
    rw [hc.history, List.pairwise_append]
    refine ⟨h.redeemed, List.pairwise_singleton _ _,
      fun com' hcom' c hcc raw raw' code code' hr hr' he => ?_⟩
    rw [List.mem_singleton.mp hcc] at hr'
    -- the earlier redemption left the row revoked, and this one found it unrevoked
    obtain ⟨hmem, -, hrev, -⟩ := mem_of_redeems hc hr'
    rw [h.spent com' hcom' raw code hr code' hmem he.symm] at hrev
    cases hrev

end Commit

/-- The ledger is right after every interleaving. -/
theorem ledger_run (hP : P.Exact) (clients : Clients) (now : Int)
    (as : List (Act Request Clients)) :
    Inv (handle P) ((isolation (handle P)).exec (Sys.empty clients now) as) ∧
      Ledger P ((isolation (handle P)).exec (Sys.empty clients now) as) :=
  commit_rule (fun _ _ hq hb h => h.quiet hq hb) (fun _ _ _ hc hb h => h.commit hP hc hb)
    (inv_empty _ clients now) (ledger_empty clients now) as

/-! ## One redemption -/

/-- In a list no two members of which are related, what only related members share singles
one out. -/
theorem index_unique {β : Type} {R : β → β → Prop} {l : List β} (h : l.Pairwise R)
    {i j : Nat} (hi : i < l.length) (hj : j < l.length) (hij : ¬ R l[i] l[j])
    (hji : ¬ R l[j] l[i]) : i = j := by
  rw [List.pairwise_iff_getElem] at h
  rcases Nat.lt_trichotomy i j with hlt | heq | hgt
  · exact absurd (h i j hi hj hlt) hij
  · exact heq
  · exact absurd (h j i hj hi hgt) hji

variable {s : Deployment}

/-- What two commits both hold, one commit holds. -/
theorem Ledger.holds_unique (h : Ledger P s) {i j : Nat} (hi : i < s.history.length)
    (hj : j < s.history.length) {x : Serial} (hxi : s.history[i].mark.Holds x)
    (hxj : s.history[j].mark.Holds x) : i = j :=
  index_unique h.disjoint hi hj (fun hR => hR x hxi hxj) fun hR => hR x hxj hxi

/-- One code has one row. -/
theorem Ledger.code_unique (hP : P.Exact) (h : Ledger P s) {com com' : Commit}
    (hcom : com ∈ s.history) (hcom' : com' ∈ s.history) {raw : String} {id id' : Nat}
    (hissues : IssuesCode P com raw id) (hissues' : IssuesCode P com' raw id') : id = id' := by
  obtain ⟨i, hi, rfl⟩ := List.getElem_of_mem hcom
  obtain ⟨j, hj, rfl⟩ := List.getElem_of_mem hcom'
  have hdraws : ∃ k, s.history[i].mark.Holds (.draw k) ∧ s.history[j].mark.Holds (.draw k) := by
    obtain ⟨_, _, _, -, -, -, k, hk, hraw, -⟩ := hissues
    obtain ⟨_, _, _, -, -, -, k', hk', hraw', -⟩ := hissues'
    obtain rfl := rawValue_inj hP (hraw.symm.trans hraw')
    exact ⟨k, hk, hk'⟩
  obtain ⟨k, hk, hk'⟩ := hdraws
  obtain rfl := h.holds_unique hi hj hk hk'
  exact hissues.id_unique hissues'

/-- Two redemptions of one code, or of one row, are one commit. -/
theorem Ledger.redeems_unique (hP : P.Exact) (h : Ledger P s) {i j : Nat}
    (hi : i < s.history.length) (hj : j < s.history.length) {raw raw' : String}
    {code code' : Row Token} (hr : Redeems P s.history[i] raw code)
    (hr' : Redeems P s.history[j] raw' code') (hsame : raw = raw' ∨ code.id = code'.id) :
    i = j := by
  have hid : code.id = code'.id := by
    rcases hsame with rfl | hid
    · obtain ⟨com₀, hcom₀, hissues⟩ := h.issued _ (List.getElem_mem hi) raw code hr
      obtain ⟨com₁, hcom₁, hissues'⟩ := h.issued _ (List.getElem_mem hj) raw code' hr'
      exact h.code_unique hP hcom₀ hcom₁ hissues hissues'
    · exact hid
  exact index_unique h.redeemed hi hj (fun hR => hR raw raw' code code' hr hr' hid)
    fun hR => hR raw' raw code' code hr' hr hid.symm

/-- **A code is redeemed at most once.**  After any interleaving of any number of requests,
with the clock and the clients changing at will:

* an answered request is one commit, and a committed exchange redeemed the code it presented,
which a committed authorize call had issued;
* no two commits redeemed one code, and no two answered exchanges presented one;
* every access or refresh row in the table was created by one commit, and that commit was
answered with tokens. -/
theorem code_redeemed_once (P : Platform) (hP : P.Exact) (clients : Clients) (now : Int)
    (as : List (Act Request Clients)) :
    let s : Deployment := (isolation (handle P)).exec (Sys.empty clients now) as
    (∀ j q reply, s.jobs j = some ⟨q, .done (.ok reply)⟩ →
      ∃ com ∈ s.history, com.job = j ∧ com.req = q ∧ com.result = reply) ∧
    (∀ com ∈ s.history, IsExchange com.req → ∃ raw code, Redeems P com raw code ∧
      ∃ com₀ ∈ s.history, IssuesCode P com₀ raw code.id) ∧
    (∀ i j (hi : i < s.history.length) (hj : j < s.history.length) raw raw' code code',
      Redeems P s.history[i] raw code → Redeems P s.history[j] raw' code' →
      raw = raw' ∨ code.id = code'.id → i = j) ∧
    (∀ j j' q q' reply reply' raw, s.jobs j = some ⟨q, .done (.ok reply)⟩ →
      s.jobs j' = some ⟨q', .done (.ok reply')⟩ → PresentsCode q raw → PresentsCode q' raw → j = j') ∧
    ∀ r ∈ s.rows, r.val.tokenType ≠ .code →
      ∃ i, ∃ hi : i < s.history.length, Inserts s.history[i].mark.log r.id ∧
        (∃ body, s.history[i].result = .token body) ∧
        ∀ j (hj : j < s.history.length), Inserts s.history[j].mark.log r.id → j = i := by
  intro s
  obtain ⟨hinv, hledger⟩ := ledger_run hP clients now as
  refine ⟨hinv.done, fun com hcom hx => ?_, fun i j hi hj raw raw' code code' hr hr' hsame => ?_,
    fun j j' q q' reply reply' raw hj hj' hq hq' => ?_, fun r hr hne => ?_⟩
  · obtain ⟨raw, code, hr⟩ := hledger.exchange com hcom hx
    exact ⟨raw, code, hr, hledger.issued com hcom raw code hr⟩
  · exact hledger.redeems_unique hP hi hj hr hr' hsame
  · obtain ⟨com, hcom, rfl, rfl, -⟩ := hinv.done j q reply hj
    obtain ⟨com', hcom', rfl, rfl, -⟩ := hinv.done j' q' reply' hj'
    obtain ⟨raw₁, code, hr⟩ := hledger.exchange com hcom hq.isExchange
    obtain ⟨raw₂, code', hr'⟩ := hledger.exchange com' hcom' hq'.isExchange
    have hraw : raw₁ = raw₂ := (hr.presents.unique hq).trans (hq'.unique hr'.presents)
    obtain ⟨i, hi, rfl⟩ := List.getElem_of_mem hcom
    obtain ⟨k, hk, rfl⟩ := List.getElem_of_mem hcom'
    obtain rfl := hledger.redeems_unique hP hi hk hr hr' (Or.inl hraw)
    rfl
  · obtain ⟨com, hcom, hcreates⟩ := hledger.rows r hr
    obtain ⟨i, hi, rfl⟩ := List.getElem_of_mem hcom
    exact ⟨i, hi, hcreates.inserts, hcreates.token hne, fun j hj hins =>
      hledger.holds_unique (x := .row r.id) hj hi hins hcreates.inserts⟩

/-- Two token requests of the client present one code: both read it before either commits, and
the second starts over. -/
def race : List (Act Request Clients) :=
  [.submit 0 (authorizeWebRequest "read"), .start 0] ++ List.replicate 4 (.advance 0) ++
  [.commit 0, .submit 1 (tokenWebRequest (redeemWebKw 0)),
    .submit 2 (tokenWebRequest (redeemWebKw 0)), .start 1, .start 2] ++
  List.replicate 10 (.advance 1) ++ List.replicate 10 (.advance 2) ++
  [.commit 1, .commit 2, .start 2] ++ List.replicate 4 (.advance 2)

theorem presentsCode_redeemWeb (i : Nat) :
    PresentsCode (tokenWebRequest (redeemWebKw i)) (rawValue Platform.sample i) :=
  ⟨none, _, rfl, rfl, rfl⟩

set_option maxRecDepth 8000 in
/-- The first is answered, and so the second is not. -/
theorem code_redeemed_once_race :
    let s : Deployment := (isolation (handle Platform.sample)).exec (Sys.empty [webClient] 0) race
    (∃ reply, s.jobs 1 = some ⟨tokenWebRequest (redeemWebKw 0), .done (.ok reply)⟩) ∧
      ∀ reply, s.jobs 2 ≠ some ⟨tokenWebRequest (redeemWebKw 0), .done (.ok reply)⟩ := by
  intro s
  have hfirst : ∃ reply, s.jobs 1 = some ⟨tokenWebRequest (redeemWebKw 0), .done (.ok reply)⟩ :=
    ⟨_, rfl⟩
  obtain ⟨reply, hj⟩ := hfirst
  obtain ⟨-, -, -, honce, -⟩ :=
    code_redeemed_once Platform.sample Platform.sample_exact [webClient] 0 race
  refine ⟨⟨reply, hj⟩, fun reply' hj' => ?_⟩
  exact absurd (honce 1 2 _ _ reply reply' _ hj hj' (presentsCode_redeemWeb 0)
    (presentsCode_redeemWeb 0)) (by decide)

end SsiRest.Oauth
