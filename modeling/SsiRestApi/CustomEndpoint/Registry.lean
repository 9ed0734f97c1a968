import SsiRestApi.CustomEndpoint.Endpoint
import SsiRestApi.Lib.Machine
import SsiRestApi.Orm

/-!
# The registry of custom endpoints

`create`, `write` and `unlink` of endpoints, and the two lookups a call makes: the
query that settles on a cursor before authentication and the search of
`custom_endpoint_call`.  Both look for an active endpoint with the path and the
method of the request; the table is unique in the path alone.

    every registry reached dispatches exactly                      (dispatchesExactly)
    definitions can all be created ↔ no two have one path and none is taken
                                                                     (registry_keyed_iff)
-/

namespace SsiRest.CustomEndpoint

open Py Tx

/-- The values of a `write`: those of the fields it names. -/
structure EndpointVals where
  active : Option Bool := none
  path : Option String := none
  httpMethod : Option HttpMethod := none
  handlerType : Option HandlerType := none
  modelId : Option (Option Nat) := none
  methodName : Option (Option String) := none
  serverActionId : Option (Option Nat) := none
  profileIds : Option (List Nat) := none
  isReadonly : Option Bool := none

instance : Update EndpointVals Endpoint where
  update vals e :=
    { active := vals.active.getD e.active
      path := vals.path.getD e.path
      httpMethod := vals.httpMethod.getD e.httpMethod
      handlerType := vals.handlerType.getD e.handlerType
      modelId := vals.modelId.getD e.modelId
      methodName := vals.methodName.getD e.methodName
      serverActionId := vals.serverActionId.getD e.serverActionId
      profileIds := vals.profileIds.getD e.profileIds
      isReadonly := vals.isReadonly.getD e.isReadonly }

/-- The values name a field `_check_handler_configuration` depends on. -/
def EndpointVals.configuresHandler (vals : EndpointVals) : Bool :=
  vals.handlerType.isSome || vals.modelId.isSome || vals.methodName.isSome ||
    vals.serverActionId.isSome

/-- The group `ssi_rest_endpoint_group`. -/
def configurator : Group := .other 1

/-- Every internal user may read endpoints, configurators may do everything. -/
def endpointModel : Model Endpoint where
  name := "ssi_rest_endpoint"
  security :=
    { access := [⟨some .user, [.read]⟩, ⟨some configurator, [.read, .write, .create, .unlink]⟩]
      rules := [] }

/-! ## Operations -/

abbrev EndpointM := Prog Unit Endpoint EndpointVals Exn

/-- `_path_uniq`. -/
def PathUniq (rows : Endpoints) : Prop := (rows.map fun r => r.val.path).Nodup

instance (rows : Endpoints) : Decidable (PathUniq rows) :=
  inferInstanceAs (Decidable (rows.map fun r => r.val.path).Nodup)

/-- What PostgreSQL raises on two rows with one path. -/
def uniqueViolation : Exn := .python "UniqueViolation"

def checkPathUniq : EndpointM Unit := do
  let rows ← getRows
  require (decide (PathUniq rows)) uniqueViolation

def create (env : Env) (e : Endpoint) : EndpointM Nat := do
  let id ← Orm.create endpointModel env e
  checkPathUniq
  ofExcept (checkHandlerConfiguration ⟨id, e⟩)
  pure id

def write (env : Env) (ids : List Nat) (vals : EndpointVals) : EndpointM Unit := do
  Orm.write endpointModel env ids vals
  let rows ← getRows
  ofExcept (if vals.configuresHandler then
    (rows.filter fun r => ids.contains r.id).forM checkHandlerConfiguration else .ok ())
  checkPathUniq

inductive Request where
  | create (env : Env) (e : Endpoint)
  | write (env : Env) (ids : List Nat) (vals : EndpointVals)
  | unlink (env : Env) (ids : List Nat)

inductive Reply where
  | record (id : Nat)
  | done
  deriving DecidableEq

def handle : Request → EndpointM Reply
  | .create env e => do
    let id ← create env e
    pure (.record id)
  | .write env ids vals => do
    write env ids vals
    pure .done
  | .unlink env ids => do
    Orm.unlink endpointModel env ids
    pure .done

abbrev State := Db Unit Endpoint

/-- The registry: one transaction a request. -/
def registry : Machine State Request (Except Exn Reply) := ⟨fun s q => (handle q).transact s⟩

/-- No endpoint was ever created. -/
def initial : State := ⟨(), [], 0, 0, 0⟩

/-! ## Calls -/

/-- `_custom_endpoint_readonly`: the rows a cursor of its own sees, when it gets one. -/
def customEndpointReadonly (rows : Option Endpoints) (subpath : Option String)
    (httpMethod : String) : Bool :=
  match filledIn subpath, rows with
  | some subpath, some rows =>
    match rows.find? fun r => r.val.path == subpath && r.val.httpMethod.code == httpMethod &&
        r.val.active with
    | some row => row.val.isReadonly
    | none => false
  | _, _ => false

/-- `search([("path", "=", …), ("http_method", "=", …)], limit=1)`, of active records. -/
def findEndpoint (rows : Endpoints) (subpath httpMethod : String) : Option (Row Endpoint) :=
  rows.find? fun r => r.val.active && r.val.path == subpath && r.val.httpMethod.code == httpMethod

/-- What a handler returns. -/
inductive HandlerResult where
  | value (v : Json)
  | records (ids : List Nat)

/-- What a call sees besides the endpoints. -/
structure CallSite where
  profiles : Profiles
  irModel : List (Row String)
  runModelMethod : User → Row Endpoint → Json → Kw → Except Exn HandlerResult
  runServerAction : User → Row Endpoint → Json → Except Exn HandlerResult

/-- The rest of `custom_endpoint_call`, for the endpoint it found. -/
def invoke (site : CallSite) (user : User) (endpoint : Row Endpoint) (ids : Json) (kwargs : Kw) :
    Except Exn Json := do
  if !checkRestAccess site.profiles site.irModel endpoint.val user then
    .error (RestAuthError "access_denied" "You are not allowed to perform this action." 403)
  else
    let result ← match endpoint.val.handlerType with
      | .modelMethod => site.runModelMethod user endpoint ids kwargs
      | .serverAction => site.runServerAction user endpoint ids
    pure (.obj [("result", match result with
      | .value v => v
      | .records ids => .arr (ids.map fun id => .int id))])

/-- What is answered where there is no endpoint. -/
def endpointNotFound : Exn := RestAuthError "missing_record" "Endpoint not found." 404

/-- `custom_endpoint_call`. -/
def customEndpointCall (site : CallSite) (rows : Endpoints) (user : User)
    (subpath httpMethod : String) (ids : Json) (kwargs : Kw) : Except Exn Json :=
  if !endpointModel.security.hasAccess user .read then .error (Orm.accessError endpointModel)
  else
    match findEndpoint rows subpath httpMethod with
    | none => .error endpointNotFound
    | some endpoint => invoke site user endpoint ids kwargs

/-! ## What an operation leaves -/

theorem handle_pathUniq {rows : Endpoints} (huniq : PathUniq rows) (q : Request) (d n : Nat) :
    Prog.wlp () rows (handle q) (.start d n) fun _ m => PathUniq (applyOps m.log rows) := by
  cases q with
  | create env e =>
    simp only [handle, create, checkPathUniq, Prog.wlp_bind, Orm.wlp_create, Prog.wlp_getRows,
      Prog.wlp_require, Prog.wlp_ofExcept, Prog.wlp_pure, decide_eq_true_eq]
    intro _ id _ _ hchecked _ _
    exact hchecked
  | write env ids vals =>
    simp only [handle, write, checkPathUniq, Prog.wlp_bind, Orm.wlp_write, Prog.wlp_getRows,
      Prog.wlp_require, Prog.wlp_ofExcept, Prog.wlp_pure, decide_eq_true_eq]
    intro _ _ _ hchecked
    exact hchecked
  | unlink env ids =>
    simp only [handle, Prog.wlp_bind, Orm.wlp_unlink, Prog.wlp_pure, Mark.start_log,
      List.nil_append]
    intro _
    refine applyOps_induction (I := PathUniq) (fun op hop rows hrows => ?_) huniq
    obtain ⟨id, -, rfl⟩ := List.mem_map.mp hop
    exact List.Nodup.sublist (List.filter_sublist.map _) hrows

theorem next_pathUniq (s : State) (q : Request) (huniq : PathUniq s.rows) :
    PathUniq (registry.next s q).rows := by
  rcases Prog.transact_wlp (handle_pathUniq huniq q s.drawn s.nextId) with
    ⟨e, -, hrows⟩ | ⟨reply, m, -, hm, -, -, hrows⟩
  · rw [show (registry.next s q).rows = s.rows from hrows]
    exact huniq
  · rw [show (registry.next s q).rows = applyOps m.log s.rows from hrows]
    exact hm

/-- In every registry reached no two endpoints have one path. -/
theorem pathUniq_exec (history : List Request) : PathUniq (registry.exec initial history).rows :=
  registry.invariant (I := fun s => PathUniq s.rows) next_pathUniq (s := initial) List.nodup_nil
    history

/-! ## Exact dispatch -/

/-- The active endpoint of a path and a method. -/
structure KeyedBy (rows : Endpoints) (subpath httpMethod : String) (r : Row Endpoint) : Prop where
  mem : r ∈ rows
  active : r.val.active = true
  path : r.val.path = subpath
  httpMethod : r.val.httpMethod.code = httpMethod

/-- Every call a user who may read endpoints makes reaches the one active endpoint with the path
and the method, whose `is_readonly` chose the cursor, or there is none and the answer is 404. -/
def DispatchesExactly (site : CallSite) (rows : Endpoints) : Prop :=
  ∀ (user : User) (subpath httpMethod : String) (ids : Json) (kwargs : Kw),
    endpointModel.security.hasAccess user .read = true → subpath ≠ "" →
    (∃ r, KeyedBy rows subpath httpMethod r ∧ (∀ r', KeyedBy rows subpath httpMethod r' → r' = r) ∧
      customEndpointCall site rows user subpath httpMethod ids kwargs =
        invoke site user r ids kwargs ∧
      customEndpointReadonly (some rows) (some subpath) httpMethod = r.val.isReadonly) ∨
    ((∀ r, ¬ KeyedBy rows subpath httpMethod r) ∧
      customEndpointCall site rows user subpath httpMethod ids kwargs = .error endpointNotFound ∧
      customEndpointReadonly (some rows) (some subpath) httpMethod = false)

/-- The path alone determines the endpoint. -/
theorem PathUniq.eq_of_path {rows : Endpoints} (huniq : PathUniq rows) {r r' : Row Endpoint}
    (hr : r ∈ rows) (hr' : r' ∈ rows) (hpath : r.val.path = r'.val.path) : r = r' :=
  List.inj_on_of_nodup_map huniq hr hr' hpath

/-- A lookup of the key finds the endpoint that has it. -/
theorem find?_eq_some_of_keyedBy {rows : Endpoints} {subpath httpMethod : String}
    {lookup : Row Endpoint → Bool}
    (hlookup : ∀ r ∈ rows, lookup r = true ↔ KeyedBy rows subpath httpMethod r) {r : Row Endpoint}
    (hr : KeyedBy rows subpath httpMethod r)
    (hsole : ∀ r', KeyedBy rows subpath httpMethod r' → r' = r) : rows.find? lookup = some r := by
  cases hfind : rows.find? lookup with
  | none => exact absurd ((hlookup r hr.mem).mpr hr) (List.find?_eq_none.mp hfind r hr.mem)
  | some r' =>
    have hkeyed := (hlookup r' (List.mem_of_find?_eq_some hfind)).mp (List.find?_some hfind)
    rw [hsole r' hkeyed]

theorem dispatchesExactly_of_pathUniq (site : CallSite) {rows : Endpoints}
    (huniq : PathUniq rows) : DispatchesExactly site rows := by
  intro user subpath httpMethod ids kwargs haccess hsubpath
  have hsearch : ∀ r ∈ rows, (r.val.active && r.val.path == subpath &&
      r.val.httpMethod.code == httpMethod) = true ↔ KeyedBy rows subpath httpMethod r := by
    intro r hr
    simp only [Bool.and_eq_true, beq_iff_eq]
    exact ⟨fun h => ⟨hr, h.1.1, h.1.2, h.2⟩, fun h => ⟨⟨h.active, h.path⟩, h.httpMethod⟩⟩
  have hquery : ∀ r ∈ rows, (r.val.path == subpath && r.val.httpMethod.code == httpMethod &&
      r.val.active) = true ↔ KeyedBy rows subpath httpMethod r := by
    intro r hr
    simp only [Bool.and_eq_true, beq_iff_eq]
    exact ⟨fun h => ⟨hr, h.2, h.1.1, h.1.2⟩, fun h => ⟨⟨h.path, h.httpMethod⟩, h.active⟩⟩
  have hfilled : filledIn (some subpath) = some subpath := by simp [filledIn, hsubpath]
  by_cases hexists : ∃ r, KeyedBy rows subpath httpMethod r
  · obtain ⟨r, hr⟩ := hexists
    have hsole : ∀ r', KeyedBy rows subpath httpMethod r' → r' = r := fun r' hr' =>
      huniq.eq_of_path hr'.mem hr.mem (hr'.path.trans hr.path.symm)
    refine Or.inl ⟨r, hr, hsole, ?_, ?_⟩
    · simp only [customEndpointCall, haccess, findEndpoint,
        find?_eq_some_of_keyedBy hsearch hr hsole]
      rfl
    · simp only [customEndpointReadonly, hfilled, find?_eq_some_of_keyedBy hquery hr hsole]
  · have hnone : ∀ r, ¬ KeyedBy rows subpath httpMethod r := not_exists.mp hexists
    have hfind : ∀ {lookup : Row Endpoint → Bool},
        (∀ r ∈ rows, lookup r = true ↔ KeyedBy rows subpath httpMethod r) →
        rows.find? lookup = none := fun h =>
      List.find?_eq_none.mpr fun r hr hlookup => hnone r ((h r hr).mp hlookup)
    refine Or.inr ⟨hnone, ?_, ?_⟩
    · simp only [customEndpointCall, haccess, findEndpoint, hfind hsearch]
      rfl
    · simp only [customEndpointReadonly, hfilled, hfind hquery]

/-- Every registry reached dispatches exactly. -/
theorem dispatchesExactly (site : CallSite) (history : List Request) :
    DispatchesExactly site (registry.exec initial history).rows :=
  dispatchesExactly_of_pathUniq site (pathUniq_exec history)

/-! ## Creating a list of definitions -/

/-- Creating the endpoints one after another. -/
def creations (env : Env) (defs : List Endpoint) : List Request := defs.map (.create env)

/-- Every request of the list returns, one after another. -/
def AllReturn (s : State) (qs : List Request) : Prop :=
  registry.Every (fun s q => ∃ reply, registry.answer s q = .ok reply) s qs

/-- The registry is keyed by path and method as far as these definitions go: all of them can be
created, and afterwards it dispatches exactly. -/
def KeyedByPathAndMethod (site : CallSite) (s : State) (env : Env) (defs : List Endpoint) : Prop :=
  AllReturn s (creations env defs) ∧
    DispatchesExactly site (registry.exec s (creations env defs)).rows

/-- A creation that is granted and configured comes down to the constraint on the paths. -/
theorem create_transact {s : State} {env : Env} {e : Endpoint}
    (henv : endpointModel.security.hasAccess env.user .create = true)
    (hvalid : e.checkHandlerConfigurationCondition = true) :
    (handle (.create env e)).transact s =
      if PathUniq (⟨s.nextId, e⟩ :: s.rows) then
        ({ s with rows := ⟨s.nextId, e⟩ :: s.rows, nextId := s.nextId + 1 },
          .ok (.record s.nextId))
      else ({ s with nextId := s.nextId + 1 }, .error uniqueViolation) := by
  have hrules : endpointModel.security.passesRules env.user .create e = true := rfl
  simp only [Prog.transact, handle, create, Orm.create, checkPathUniq, Prog.run_bind,
    Prog.run_require, Prog.run_createRow, Prog.run_getRows, Prog.run_ofExcept, Prog.run_pure,
    henv, hrules, Bool.or_true, if_true, checkHandlerConfiguration, hvalid]
  by_cases hpath : PathUniq (⟨s.nextId, e⟩ :: s.rows)
  · simp [hpath]
  · simp [hpath]

/-- A creation returns exactly when no endpoint has the path. -/
theorem create_returns_iff {s : State} {env : Env} {e : Endpoint}
    (henv : endpointModel.security.hasAccess env.user .create = true)
    (hvalid : e.checkHandlerConfigurationCondition = true) (huniq : PathUniq s.rows) :
    (∃ reply, registry.answer s (.create env e) = .ok reply) ↔
      ∀ r ∈ s.rows, r.val.path ≠ e.path := by
  have hiff : PathUniq (⟨s.nextId, e⟩ :: s.rows) ↔ ∀ r ∈ s.rows, r.val.path ≠ e.path := by
    have huniq' : (s.rows.map fun r => r.val.path).Nodup := huniq
    simp only [PathUniq, List.map_cons, List.nodup_cons, huniq', and_true, List.mem_map,
      not_exists, not_and]
  rw [← hiff]
  show (∃ reply, ((handle (.create env e)).transact s).2 = .ok reply) ↔ _
  rw [create_transact henv hvalid]
  by_cases hpath : PathUniq (⟨s.nextId, e⟩ :: s.rows)
  · rw [if_pos hpath]
    exact iff_of_true ⟨_, rfl⟩ hpath
  · rw [if_neg hpath]
    exact iff_of_false (fun ⟨_, h⟩ => by cases h) hpath

theorem create_rows {s : State} {env : Env} {e : Endpoint}
    (henv : endpointModel.security.hasAccess env.user .create = true)
    (hvalid : e.checkHandlerConfigurationCondition = true) (huniq : PathUniq s.rows)
    (hfresh : ∀ r ∈ s.rows, r.val.path ≠ e.path) :
    (registry.next s (.create env e)).rows = ⟨s.nextId, e⟩ :: s.rows := by
  have hpath : PathUniq (⟨s.nextId, e⟩ :: s.rows) := by
    refine List.nodup_cons.mpr ⟨fun hmem => ?_, huniq⟩
    obtain ⟨r, hr, hpath⟩ := List.mem_map.mp hmem
    exact hfresh r hr hpath
  show ((handle (.create env e)).transact s).1.rows = _
  rw [create_transact henv hvalid, if_pos hpath]

/-- The paths of the definitions are new and no two of them are the same. -/
def FreshPaths (rows : Endpoints) (defs : List Endpoint) : Prop :=
  (defs.map Endpoint.path).Nodup ∧ ∀ e ∈ defs, ∀ r ∈ rows, r.val.path ≠ e.path

theorem freshPaths_cons_iff {rows : Endpoints} {e : Endpoint} {defs : List Endpoint}
    (id : Nat) : FreshPaths rows (e :: defs) ↔
      (∀ r ∈ rows, r.val.path ≠ e.path) ∧ FreshPaths (⟨id, e⟩ :: rows) defs := by
  unfold FreshPaths
  simp only [List.map_cons, List.nodup_cons, List.mem_map, not_exists, not_and,
    List.forall_mem_cons]
  constructor
  · rintro ⟨⟨hnew, hnodup⟩, hfresh, hrest⟩
    exact ⟨hfresh, hnodup, fun e' he' => ⟨fun h => hnew e' he' h.symm, hrest e' he'⟩⟩
  · rintro ⟨hfresh, hnodup, hrest⟩
    exact ⟨⟨fun e' he' h => (hrest e' he').1 h.symm, hnodup⟩, hfresh,
      fun e' he' => (hrest e' he').2⟩

theorem allReturn_creations_iff {env : Env} {defs : List Endpoint}
    (henv : endpointModel.security.hasAccess env.user .create = true)
    (hvalid : ∀ e ∈ defs, e.checkHandlerConfigurationCondition = true) {s : State}
    (huniq : PathUniq s.rows) :
    AllReturn s (creations env defs) ↔ FreshPaths s.rows defs := by
  induction defs generalizing s with
  | nil => simp [AllReturn, creations, Machine.Every, FreshPaths]
  | cons e defs ih =>
    have he := hvalid e List.mem_cons_self
    have hrest : ∀ e' ∈ defs, e'.checkHandlerConfigurationCondition = true :=
      fun e' he' => hvalid e' (List.mem_cons_of_mem _ he')
    show (∃ reply, registry.answer s (.create env e) = .ok reply) ∧
      AllReturn (registry.next s (.create env e)) (creations env defs) ↔ _
    rw [create_returns_iff henv he huniq, ih hrest (next_pathUniq s _ huniq),
      freshPaths_cons_iff s.nextId]
    refine and_congr_right fun hfresh => ?_
    rw [create_rows henv he huniq hfresh]

/-- **The key of the registry.**  In a registry with any history, definitions whose handlers are
configured can all be created, and calls are then dispatched exactly, if and only if no two of
them have one path and no endpoint, active or archived, has the path of one. -/
theorem registry_keyed_iff (site : CallSite) (history : List Request) {env : Env}
    {defs : List Endpoint} (henv : endpointModel.security.hasAccess env.user .create = true)
    (hvalid : ∀ e ∈ defs, e.checkHandlerConfigurationCondition = true) :
    KeyedByPathAndMethod site (registry.exec initial history) env defs ↔
      FreshPaths (registry.exec initial history).rows defs := by
  unfold KeyedByPathAndMethod
  rw [allReturn_creations_iff henv hvalid (pathUniq_exec history), ← Machine.exec_append]
  exact and_iff_left (dispatchesExactly site _)

/-! ## One path under two methods -/

/-- A user who may create endpoints. -/
def administrator : Env := ⟨⟨2, [.user, configurator]⟩, false⟩

def sampleCallSite : CallSite where
  profiles := []
  irModel := [⟨1, "sale.order"⟩]
  runModelMethod _ _ _ _ := .ok (.value (.bool true))
  runServerAction _ _ _ := .ok (.value (.bool false))

/-- Reads what `closeSale` closes, under the same path. -/
def readSale : Endpoint :=
  { closeSale with httpMethod := .GET, methodName := some "read", isReadonly := true }

/-- Lists the orders. -/
def listOrders : Endpoint :=
  { closeSale with
    path := "orders"
    httpMethod := .GET
    methodName := some "search_read"
    isReadonly := true }

/-- An endpoint was created and archived. -/
def archivedBefore : List Request :=
  [.create administrator { closeSale with path := "sales/cancel" },
    .write administrator [0] { active := some false }]

/-- Definitions of two paths can both be created. -/
theorem registry_keyed_closeSale :
    (registry.exec initial archivedBefore).rows.length = 1 ∧
      KeyedByPathAndMethod sampleCallSite (registry.exec initial archivedBefore) administrator
        [closeSale, listOrders] := by
  have hrows : (registry.exec initial archivedBefore).rows =
      [⟨0, { closeSale with path := "sales/cancel", active := false }⟩] := by rfl
  have hfresh : FreshPaths (registry.exec initial archivedBefore).rows [closeSale, listOrders] := by
    rw [hrows]
    unfold FreshPaths
    decide
  refine ⟨by rw [hrows]; rfl, ?_⟩
  exact (registry_keyed_iff sampleCallSite archivedBefore (by decide) (by decide)).mpr hfresh

/-- The two definitions have two keys and cannot both be created. -/
theorem not_registry_keyed :
    ([closeSale, readSale].map fun e => (e.path, e.httpMethod)).Nodup ∧
      (∀ e ∈ [closeSale, readSale], e.checkHandlerConfigurationCondition = true) ∧
      endpointModel.security.hasAccess administrator.user .create = true ∧
      ¬ KeyedByPathAndMethod sampleCallSite initial administrator [closeSale, readSale] := by
  refine ⟨by decide, by decide, by decide, fun hkeyed => ?_⟩
  obtain ⟨reply, hreply⟩ := hkeyed.1.2.1
  have hrefused : registry.answer (registry.next initial (.create administrator closeSale))
      (.create administrator readSale) = .error uniqueViolation := by rfl
  rw [hrefused] at hreply
  cases hreply

end SsiRest.CustomEndpoint
