import SsiRestApi.Dispatch
import SsiRestApi.Lib.Memo
import SsiRestApi.Orm

/-!
# The registry of authentication schemes

`ssi_rest_auth_scheme`: `create`, `write` and `unlink` clear the registry's caches, and
`_get_active_schemes` is cached there, for one process whose transactions come one after another.
A failed transaction takes its changes back, and `registry.reset_changes()` clears the caches
that it had cleared.

    after any transactions a request is authenticated with the schemes that are then active
                                                                     (authMethod_cached)
-/

namespace SsiRest.AuthSchemes

open Py Tx Acl

/-- What `write` is given. -/
structure SchemeVals where
  code : Option String := none
  providerModel : Option String := none
  sequence : Option Int := none
  active : Option Bool := none

instance : Update SchemeVals Scheme where
  update vals s :=
    { code := vals.code.getD s.code
      providerModel := vals.providerModel.getD s.providerModel
      sequence := vals.sequence.getD s.sequence
      active := vals.active.getD s.active }

/-- `ssi_rest_auth_scheme_group`. -/
def configurator : Group := .other 2

/-- Every internal user reads the schemes, the configurators change them. -/
def schemeModel : Model Scheme where
  name := "ssi_rest_auth_scheme"
  security :=
    { access := [⟨some .user, [.read]⟩, ⟨some configurator, [.read, .write, .create, .unlink]⟩]
      rules := [] }

abbrev SchemeM := Prog Unit Scheme SchemeVals Exn

/-! ## Operations -/

/-- `create(vals_list)`. -/
def create (env : Env) : List Scheme → SchemeM Unit
  | [] => pure ()
  | val :: vals => do
    let _ ← Orm.create schemeModel env val
    create env vals

/-- `write(vals)`. -/
def write (env : Env) (ids : List Nat) (vals : SchemeVals) : SchemeM Unit :=
  if ids.isEmpty then pure () else Orm.write schemeModel env ids vals

/-- `unlink()`. -/
def unlink (env : Env) (ids : List Nat) : SchemeM Unit :=
  if ids.isEmpty then pure () else Orm.unlink schemeModel env ids

/-- A change of the registry. -/
inductive Change where
  | create (env : Env) (vals : List Scheme)
  | write (env : Env) (ids : List Nat) (vals : SchemeVals)
  | unlink (env : Env) (ids : List Nat)

def Change.body : Change → SchemeM Unit
  | .create env vals => AuthSchemes.create env vals
  | .write env ids vals => AuthSchemes.write env ids vals
  | .unlink env ids => AuthSchemes.unlink env ids

/-- `self.env.registry.clear_cache()`, which each of them calls once its `super()` has returned. -/
def Change.clearsCache : Change → Bool
  | .create _ _ | .write _ _ _ | .unlink _ _ => true

abbrev SchemeDb := Db Unit Scheme

/-- The rows a change leaves, or why it is refused. -/
def Change.apply (change : Change) (db : SchemeDb) : Except Exn SchemeDb :=
  match change.body.run db with
  | (.ok _, db) => .ok db
  | (.error e, _) => .error e

/-- What `_get_active_schemes` computes. -/
def activeSchemes (db : SchemeDb) : List (String × String) := getActiveSchemes db.rows

/-- A transaction: changes, calls of `_get_active_schemes`, and perhaps a failure. -/
abbrev Transaction := List (Memo.Step Change Exn)

/-- A process with the cache of `_get_active_schemes`. -/
def process : Machine (SchemeDb × Option (List (String × String))) Transaction
    (Memo.Shown (List (String × String)) Exn) :=
  Memo.cached Change.apply activeSchemes Change.clearsCache

/-- The database as it would be without one. -/
def database : Machine SchemeDb Transaction (Memo.Shown (List (String × String)) Exn) :=
  Memo.plain Change.apply activeSchemes

/-! ## Requests -/

/-- `_auth_method_ssi_rest` with what `_get_active_schemes` returns. -/
def authMethodWith (active : List (String × String)) (site : Site) (db : Database) (route : Route)
    (q : HttpRequest) : Except Exn RestAuthResult := do
  let schemes := if route.schemes.isEmpty then active
    else active.filter fun s => route.schemes.contains s.1
  let extracted ← extractAll site.registry q schemes
  match extracted with
  | [] =>
    .error (.restAuthError "authentication_required"
      "Authentication is required to access this resource." 401
      (challengeHeaders site.registry schemes))
  | [credential] => onlyRestAuthError (restAuthVerify site.services db credential)
  | _ =>
    .error (RestAuthError "multiple_credentials"
      ("More than one authentication scheme provided credentials " ++ "for this request.") 400)

theorem authMethodWith_eq (site : Site) (db : Database) (route : Route) (q : HttpRequest) :
    authMethodWith (getActiveSchemes db.schemes) site db route q =
      authMethodSsiRest site db route q := rfl

/-- **The cache is never stale.**  After any run of transactions, committed or rolled back, the
next one sees in the cache what it would compute, also after changes of its own, and a request is
authenticated with the schemes that are active in the database. -/
theorem authMethod_cached (db : SchemeDb) (run : List Transaction) :
    (∀ transaction, process.answer (process.exec (db, none) run) transaction =
      database.answer (database.exec db run) transaction) ∧
    ∃ active, process.answer (process.exec (db, none) run) [.look] = ([active], .ok ()) ∧
      ∀ site base route q, authMethodWith active site base route q =
        authMethodSsiRest site { base with schemes := (database.exec db run).rows } route q := by
  have hguards : Memo.Guards Change.apply activeSchemes Change.clearsCache :=
    fun change _ _ _ h => by cases change <;> cases h
  have hempty : Memo.Fresh activeSchemes db none := fun v h => by cases h
  have hanswer := (Memo.simulates hguards (c := (db, none)) hempty run).2
  refine ⟨hanswer, activeSchemes (database.exec db run), hanswer [.look], ?_⟩
  intro site base route q
  exact authMethodWith_eq site { base with schemes := (database.exec db run).rows } route q

end SsiRest.AuthSchemes
