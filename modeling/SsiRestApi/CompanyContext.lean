import SsiRestApi.Dispatch

/-!
# The company a request runs in

`_pre_dispatch` with the context it leaves: the core's own part comes first, then
`_ssi_rest_resolve_company` and `_ssi_rest_resolve_lang` each overwrite one key.

    an endpoint runs with allowed_company_ids = [c], for the company c the header, else
    the query parameter, else the user names                      (endpoint_in_one_company)
-/

namespace SsiRest

open Py Tx

/-- `update_context(**overrides)`: the other keys keep their values. -/
def updateContext (context overrides : Kw) : Kw := context.update overrides

/-- `_ssi_rest_resolve_company` on the context. -/
def applyCompany (db : Database) (user : Account) (q : HttpRequest) (context : Kw) :
    Except Exn Kw := do
  let company ← resolveCompany db user q
  pure (updateContext context [("allowed_company_ids", .arr [.int company])])

/-- `_ssi_rest_resolve_lang` on the context. -/
def applyLang (db : Database) (q : HttpRequest) (context : Kw) : Kw :=
  match resolveLang db q with
  | some code => updateContext context [("lang", .str code)]
  | none => context

/-- `_pre_dispatch`, over what the core does to the context after the dispatcher's own part. -/
def preDispatch (site : Site) (core : Kw → Except Exn Kw) (db : Database) (route : Route)
    (uid : Nat) (q : HttpRequest) (context : Kw) : Except Exn Kw := do
  site.corePreDispatch q
  let user ← enforceAccessProfile db uid (route.describe q)
  let context ← core context
  let context ← applyCompany db user q context
  pure (applyLang db q context)

/-- What an endpoint runs with. -/
structure EndpointRun where
  uid : Nat
  context : Kw
  params : Kw

/-- A request, from its authentication to its endpoint. -/
def reachEndpoint (site : Site) (core : Kw → Except Exn Kw) (db : Database) (route : Route)
    (pathArgs : Kw) (q : HttpRequest) (context : Kw) : Except Exn EndpointRun := do
  let identity ← identify site db route q
  let context ← preDispatch site core db route identity.uid q context
  let params ← mergeParams q pathArgs
  pure ⟨identity.uid, context, params⟩

/-- Odoo keeps a user's company among the allowed ones, which exist. -/
def CompaniesConsistent (db : Database) : Prop :=
  ∀ user ∈ db.users, user.val.companyId ∈ user.val.companyIds ∧
    ∀ c ∈ user.val.companyIds, c ∈ db.companies

/-- What the request asks for: the header, else the query parameter. -/
def requestedCompany (q : HttpRequest) : Option String :=
  (q.header "X-Odoo-Company").or (q.args.lookup "company_id")

/-- The company the request names: by its number, or by asking for none. -/
def NamesCompany (user : Account) (q : HttpRequest) (c : Nat) : Prop :=
  match requestedCompany q with
  | some raw => parseInt raw = some (c : Int)
  | none => c = user.companyId

/-- The user may work in the company. -/
def MayUse (db : Database) (user : Account) (c : Nat) : Prop :=
  c ∈ db.companies ∧ c ∈ user.companyIds

/-! ## The resolver -/

/-- Only what a request asks for counts. -/
theorem resolveCompany_congr {q q' : HttpRequest} (h : requestedCompany q = requestedCompany q')
    (db : Database) (user : Account) : resolveCompany db user q = resolveCompany db user q' := by
  unfold resolveCompany
  rw [← requestedCompany, ← requestedCompany, h]

theorem find_company_eq_some {companies : List Nat} {companyId : Int} {id : Nat}
    (h : companies.find? (fun (id : Nat) => (id : Int) == companyId) = some id) :
    id ∈ companies ∧ (id : Int) = companyId :=
  ⟨List.mem_of_find?_eq_some h, by simpa using List.find?_some h⟩

/-- The resolver settles on the company named when the user may use it. -/
theorem resolveCompany_ok_iff {db : Database} {user : Account} {q : HttpRequest} {c : Nat}
    (hown : MayUse db user user.companyId) :
    resolveCompany db user q = .ok c ↔ NamesCompany user q c ∧ MayUse db user c := by
  unfold resolveCompany NamesCompany MayUse
  rw [← requestedCompany]
  cases requestedCompany q with
  | none =>
    constructor
    · intro h
      cases h
      exact ⟨rfl, hown⟩
    · rintro ⟨rfl, -⟩
      rfl
  | some raw =>
    dsimp only
    cases parseInt raw with
    | none => simp
    | some companyId =>
      dsimp only
      cases hfind : db.companies.find? fun (id : Nat) => (id : Int) == companyId with
      | none =>
        refine iff_of_false (fun h => by cases h) ?_
        rintro ⟨hname, hexists, -⟩
        exact List.find?_eq_none.mp hfind c hexists (by simp [Option.some.inj hname])
      | some id =>
        obtain ⟨hexists, hid⟩ := find_company_eq_some hfind
        dsimp only
        constructor
        · intro h
          split at h
          · next hallowed =>
            cases h
            exact ⟨by rw [hid], hexists, List.contains_iff_mem.mp hallowed⟩
          · cases h
        · rintro ⟨hname, -, hallowed⟩
          have hc : id = c := by
            have := Option.some.inj hname
            omega
          subst hc
          rw [if_pos (List.contains_iff_mem.mpr hallowed)]

/-- Anything else is refused with a 422 or a 403. -/
theorem resolveCompany_refused {db : Database} {user : Account} {q : HttpRequest}
    (hown : MayUse db user user.companyId) (h : ∀ c, NamesCompany user q c → ¬ MayUse db user c) :
    ∃ errorCode description status,
      resolveCompany db user q = .error (RestAuthError errorCode description status) ∧
        (status = 422 ∨ status = 403) := by
  have hno : ∀ c, resolveCompany db user q ≠ .ok c := fun c hok =>
    h c ((resolveCompany_ok_iff hown).mp hok).1 ((resolveCompany_ok_iff hown).mp hok).2
  revert hno
  unfold resolveCompany
  split
  · exact fun hno => absurd rfl (hno _)
  · split
    · exact fun _ => ⟨_, _, _, rfl, Or.inl rfl⟩
    · split
      · exact fun _ => ⟨_, _, _, rfl, Or.inl rfl⟩
      · split
        · exact fun hno => absurd rfl (hno _)
        · exact fun _ => ⟨_, _, _, rfl, Or.inr rfl⟩

/-! ## The context -/

theorem lookup_updateContext (context : Kw) (key key' : String) (v : Json) :
    (updateContext context [(key, v)]).lookup key' =
      if key' = key then some v else context.lookup key' := by
  unfold updateContext
  rw [Kw.lookup_update]
  by_cases h : key' = key
  · simp [h]
  · simp [h, List.lookup_cons, beq_false_of_ne h]

/-- The language leaves the companies alone. -/
theorem lookup_applyLang (db : Database) (q : HttpRequest) (context : Kw) :
    (applyLang db q context).lookup "allowed_company_ids" =
      context.lookup "allowed_company_ids" := by
  unfold applyLang
  cases resolveLang db q with
  | none => rfl
  | some code => rw [lookup_updateContext, if_neg (by decide)]

theorem preDispatch_ok_iff {site : Site} {core : Kw → Except Exn Kw} {db : Database}
    {route : Route} {uid : Nat} {q : HttpRequest} {context context' : Kw} :
    preDispatch site core db route uid q context = .ok context' ↔
      ∃ user between company, site.corePreDispatch q = .ok () ∧
        enforceAccessProfile db uid (route.describe q) = .ok user ∧
        core context = .ok between ∧ resolveCompany db user q = .ok company ∧
        context' = applyLang db q
          (updateContext between [("allowed_company_ids", .arr [.int company])]) := by
  unfold preDispatch applyCompany
  simp only [bind_ok_iff]
  constructor
  · rintro ⟨_, hcore, user, haccess, between, hbetween, _, ⟨company, hcompany, h⟩, h'⟩
    cases h
    cases h'
    exact ⟨user, between, company, hcore, haccess, hbetween, hcompany, rfl⟩
  · rintro ⟨user, between, company, hcore, haccess, hbetween, hcompany, rfl⟩
    exact ⟨(), hcore, user, haccess, between, hbetween, _, ⟨company, hcompany, rfl⟩, rfl⟩

/-- The call `serve` makes is the one that reaches the endpoint, in the context of its company. -/
theorem serve_of_reachEndpoint {site : Site} {core : Kw → Except Exn Kw} {db : Database}
    {route : Route} {pathArgs context : Kw} {q : HttpRequest} {run : EndpointRun}
    (h : reachEndpoint site core db route pathArgs q context = .ok run) :
    ∃ call, serve site db route pathArgs q = .ok call ∧ run.uid = call.uid ∧
      run.params = call.params ∧
      run.context.lookup "allowed_company_ids" = some (.arr [.int call.companyId]) := by
  unfold reachEndpoint at h
  simp only [bind_ok_iff] at h
  obtain ⟨identity, hid, context', hpre, params, hparams, h⟩ := h
  cases h
  obtain ⟨user, between, company, hcore, haccess, -, hcompany, rfl⟩ := preDispatch_ok_iff.mp hpre
  refine ⟨_, serve_ok_iff.mpr ⟨identity, user, company, params, hid, hcore, haccess, hcompany,
    hparams, rfl⟩, rfl, rfl, ?_⟩
  rw [lookup_applyLang, lookup_updateContext, if_pos rfl]

theorem mem_of_findAccount {users : Accounts} {uid : Nat} {user : Account}
    (h : findAccount users uid = .ok user) : ∃ row ∈ users, row.val = user := by
  unfold findAccount at h
  split at h
  · next row hrow =>
    cases h
    exact ⟨row, List.mem_of_find?_eq_some hrow, rfl⟩
  · cases h

theorem mayUse_own {db : Database} (hdb : CompaniesConsistent db) {uid : Nat} {user : Account}
    (h : findAccount db.users uid = .ok user) : MayUse db user user.companyId := by
  obtain ⟨row, hrow, rfl⟩ := mem_of_findAccount h
  obtain ⟨hmem, hexist⟩ := hdb row hrow
  exact ⟨hexist _ hmem, hmem⟩

/-- Every request runs in one company that its user may use, the one it names; a request that names
any other ends before its endpoint. -/
theorem endpoint_in_one_company (site : Site) (core : Kw → Except Exn Kw) {db : Database}
    (hdb : CompaniesConsistent db) (route : Route) (pathArgs : Kw) (q : HttpRequest)
    (context : Kw) :
    (∀ run, reachEndpoint site core db route pathArgs q context = .ok run →
      ∃ user c, findAccount db.users run.uid = .ok user ∧
        run.context.lookup "allowed_company_ids" = some (.arr [.int (c : Nat)]) ∧
        MayUse db user c ∧ NamesCompany user q c) ∧
    ∀ identity user between, identify site db route q = .ok identity →
      site.corePreDispatch q = .ok () →
      enforceAccessProfile db identity.uid (route.describe q) = .ok user →
      core context = .ok between → (∀ c, NamesCompany user q c → ¬ MayUse db user c) →
      ∃ errorCode description status,
        reachEndpoint site core db route pathArgs q context =
          .error (RestAuthError errorCode description status) ∧ (status = 422 ∨ status = 403) := by
  constructor
  · intro run h
    unfold reachEndpoint at h
    simp only [bind_ok_iff] at h
    obtain ⟨identity, -, context', hpre, params, -, h⟩ := h
    cases h
    obtain ⟨user, between, company, -, haccess, -, hcompany, rfl⟩ := preDispatch_ok_iff.mp hpre
    have huser := (enforceAccessProfile_ok_iff.mp haccess).1
    obtain ⟨hnames, hmay⟩ := (resolveCompany_ok_iff (mayUse_own hdb huser)).mp hcompany
    refine ⟨user, company, huser, ?_, hmay, hnames⟩
    rw [lookup_applyLang, lookup_updateContext, if_pos rfl]
  · intro identity user between hid hcore haccess hbetween hrefused
    have huser := (enforceAccessProfile_ok_iff.mp haccess).1
    obtain ⟨errorCode, description, status, herror, hstatus⟩ :=
      resolveCompany_refused (mayUse_own hdb huser) hrefused
    refine ⟨errorCode, description, status, ?_, hstatus⟩
    unfold reachEndpoint preDispatch applyCompany
    simp only [hid, hcore, haccess, hbetween, herror, bind, Except.bind]

/-! ## A request for the second company of its user -/

/-- A site whose core runs every request as user 7. -/
def employeeSite : Site where
  services := sampleServices
  registry _ := none
  coreAuth _ _ _ := .ok 7
  corePreDispatch _ := .ok ()

/-- User 7 works in companies 1 and 2; company 3 is not theirs. -/
def companiesDatabase : Database :=
  { archivedDatabase with
    users := [⟨7, { account "employee" true with companyIds := [1, 2] }⟩]
    companies := [1, 2, 3] }

theorem companiesConsistent_companiesDatabase : CompaniesConsistent companiesDatabase := by
  unfold CompaniesConsistent
  decide

def publicRoute : Route := ⟨"/api/v1/ping", .core "public", [], none, some "ping"⟩

/-- A request whose header names a company, and whose query another. -/
def companyRequest (header : String) : HttpRequest where
  remoteAddr := none
  path := "/api/v1/ping"
  method := "GET"
  headers := [("x-odoo-company", header)]
  args := [("company_id", "1")]
  mimetype := ""
  formParams := []
  contentLength := 0
  jsonData := .ok .null

/-- The header decides, and companies of other users and what is no number are refused. -/
theorem endpoint_in_second_company :
    (∃ run, reachEndpoint employeeSite pure companiesDatabase publicRoute []
        (companyRequest " 2 ") [("allowed_company_ids", .arr [.int 1])] = .ok run ∧
      run.context.lookup "allowed_company_ids" = some (.arr [.int 2])) ∧
    ∃ errorCode description status,
      reachEndpoint employeeSite pure companiesDatabase publicRoute [] (companyRequest "3") [] =
        .error (RestAuthError errorCode description status) ∧ (status = 422 ∨ status = 403) := by
  constructor
  · refine ⟨_, by rfl, ?_⟩
    obtain ⟨user, c, -, hcontext, -, hnames⟩ := (endpoint_in_one_company employeeSite pure
      companiesConsistent_companiesDatabase publicRoute [] (companyRequest " 2 ") _).1 _ (by rfl)
    have hc : some (2 : Int) = some (c : Int) := hnames
    obtain rfl : c = 2 := by
      have := Option.some.inj hc
      omega
    exact hcontext
  · refine (endpoint_in_one_company employeeSite pure companiesConsistent_companiesDatabase
      publicRoute [] (companyRequest "3") []).2 ⟨7, none⟩ _ [] (by rfl) (by rfl) (by rfl) (by rfl)
      fun c hnames hmay => ?_
    have hc : some (3 : Int) = some (c : Int) := hnames
    obtain rfl : c = 3 := by
      have := Option.some.inj hc
      omega
    exact absurd hmay.2 (by decide)

end SsiRest
