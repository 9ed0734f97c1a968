import SsiRestApi.ApiKey.Key
import SsiRestApi.Lib.Machine

/-!
# Runs of key operations

The key table under `create`, `copy`, `write`, `unlink` and `_generate_new_key`
calls of any environment, one transaction each, with the clock moving in between.
The state also remembers every raw key handed out, by whom and for which record:
no operation reads that.

    an operation that returns had one of the listed effects    (handle_effect)
-/

namespace SsiRest.ApiKey

open Py Tx

inductive Request where
  | create (env : Env) (vals : KeyVals)
  | copy (env : Env) (id : Nat) (default : KeyVals)
  | write (env : Env) (ids : List Nat) (vals : KeyVals)
  | unlink (env : Env) (ids : List Nat)
  | generateNewKey (env : Env) (id : Nat)

inductive Reply where
  | record (id : Nat)
  | rawKey (raw : String)
  | done
  deriving DecidableEq

def handle (P : Platform) : Request → KeyM Reply
  | .create env vals => do
    let id ← create env vals
    pure (.record id)
  | .copy env id default => do
    let id' ← copy env id default
    pure (.record id')
  | .write env ids vals => do
    Orm.write keyModel env ids vals
    pure .done
  | .unlink env ids => do
    Orm.unlink keyModel env ids
    pure .done
  | .generateNewKey env id => do
    let raw ← generateNewKey P env id
    pure (.rawKey raw)

/-- A raw key handed out: for which record, by whom and what it was. -/
structure Generation where
  id : Nat
  user : User
  raw : String
  deriving DecidableEq

structure State where
  db : Db Unit Key
  /-- Every `_generate_new_key` that returned, the latest first. -/
  generated : List Generation

inductive Step where
  | request (q : Request)
  | tick (now : Int)

abbrev Answer := Option (Except Exn Reply)

/-- The raw key a request handed out. -/
def generation : Request → Except Exn Reply → Option Generation
  | .generateNewKey env id, .ok (.rawKey raw) => some ⟨id, env.user, raw⟩
  | _, _ => none

def step (P : Platform) (s : State) : Step → State × Answer
  | .request q =>
    let result := (handle P q).transact s.db
    (⟨result.1, (generation q result.2).toList ++ s.generated⟩, some result.2)
  | .tick now => ({ s with db := { s.db with now := now } }, none)

def keys (P : Platform) : Machine State Step Answer := ⟨step P⟩

/-- No key was ever created. -/
def initial (now : Int) : State := ⟨⟨(), [], now, 0, 0⟩, []⟩

/-- The most recent raw key of a record, and who generated it. -/
def latest (generated : List Generation) (id : Nat) : Option Generation :=
  generated.find? fun g => g.id == id

@[simp] theorem latest_cons_self (g : Generation) (generated : List Generation) :
    latest (g :: generated) g.id = some g := by simp [latest]

theorem latest_cons_of_ne {g : Generation} {id : Nat} (h : g.id ≠ id)
    (generated : List Generation) : latest (g :: generated) id = latest generated id := by
  simp [latest, h]

theorem latest_some {generated : List Generation} {id : Nat} {g : Generation}
    (h : latest generated id = some g) : g ∈ generated ∧ g.id = id :=
  ⟨List.mem_of_find?_eq_some h, by simpa using List.find?_some h⟩

def State.latest (s : State) (id : Nat) : Option Generation := ApiKey.latest s.generated id

/-- What `_authenticate(raw_key)` returns in a state. -/
def State.authenticate (P : Platform) (s : State) (raw : String) : Except Exn (Option (Row Key)) :=
  ApiKey.authenticate P s.db.rows s.db.now raw

/-- The employee creates two keys, generates both and generates the first again. -/
def twoKeys : List Step :=
  [.request (.create ⟨employee, false⟩ { profileId := some 1 }),
   .request (.create ⟨employee, false⟩ { profileId := some 2 }),
   .request (.generateNewKey ⟨employee, false⟩ 0),
   .request (.generateNewKey ⟨employee, false⟩ 1),
   .request (.generateNewKey ⟨employee, false⟩ 0)]

/-! ## What an operation can do to the table -/

/-- The outcomes of the operations that return, on the rows of a snapshot with every random
number from `d` and record id from `n` on unused; those below `e` and `f` are used up. -/
inductive Effect (P : Platform) (rows : List (Row Key)) (d n e f : Nat) :
    Request → Reply → List (RowOp Key KeyVals) → Prop
  | create {env : Env} {vals : KeyVals} {val : Key} {id : Nat}
      (hval : newKey env vals = some val) (hid : n ≤ id) (hf : id < f) :
      Effect P rows d n e f (.create env vals) (.record id) [.ins id val]
  | copy {env : Env} {source : Row Key} {default : KeyVals} {id : Nat}
      (hsource : source ∈ rows) (hid : n ≤ id) (hf : id < f) :
      Effect P rows d n e f (.copy env source.id default) (.record id)
        [.ins id (copyData source.val default)]
  | write {env : Env} {ids : List Nat} {vals : KeyVals}
      (hgranted : Orm.Granted keyModel env .write ids rows) :
      Effect P rows d n e f (.write env ids vals) .done (ids.map fun id => .upd id vals)
  | unlink {env : Env} {ids : List Nat} (hgranted : Orm.Granted keyModel env .unlink ids rows) :
      Effect P rows d n e f (.unlink env ids) .done (ids.map .del)
  | generateNewKey {env : Env} {id i : Nat}
      (hgranted : Orm.Granted keyModel env .write [id] rows) (hi : d ≤ i) (he : i < e) :
      Effect P rows d n e f (.generateNewKey env id) (.rawKey (rawKey P i))
        [.upd id (generatedVals P i)]

variable {P : Platform}

theorem handle_effect {rows : List (Row Key)} (q : Request) (d n : Nat) :
    Prog.wlp () rows (handle P q) (.start d n) fun reply m =>
      Effect P rows d n m.drawn m.nextId q reply m.log := by
  cases q with
  | create env vals =>
    simp only [handle, create, Prog.wlp_bind, Prog.wlp_ofOption, Orm.wlp_create, Prog.wlp_pure,
      Mark.start_log, List.nil_append]
    intro val hval _ id hid _
    exact .create hval hid (Nat.lt_succ_self id)
  | copy env id default =>
    simp only [handle, copy, Prog.wlp_bind, Orm.wlp_checkAccess, Prog.wlp_getRows,
      Prog.wlp_ofOption, Orm.wlp_create, Prog.wlp_pure, Mark.start_log, List.nil_append,
      applyOps_nil]
    intro _ source hsource _ id' hid' _
    obtain rfl : source.id = id := by simpa using List.find?_some hsource
    exact .copy (List.mem_of_find?_eq_some hsource) hid' (Nat.lt_succ_self id')
  | write env ids vals =>
    simp only [handle, Prog.wlp_bind, Orm.wlp_write, Prog.wlp_pure, Mark.start_log,
      List.nil_append, applyOps_nil]
    exact .write
  | unlink env ids =>
    simp only [handle, Prog.wlp_bind, Orm.wlp_unlink, Prog.wlp_pure, Mark.start_log,
      List.nil_append, applyOps_nil]
    exact .unlink
  | generateNewKey env id =>
    simp only [handle, generateNewKey, Credential.generateNew, Prog.wlp_bind, Prog.wlp_getDraw,
      Orm.wlp_write, Prog.wlp_pure, Mark.start_log, List.nil_append, applyOps_nil,
      List.map_cons, List.map_nil]
    intro i hi hgranted
    exact .generateNewKey hgranted hi (Nat.lt_succ_self i)

/-- A request that raises changes nothing but the counters; one that returns had an effect,
and its log was applied. -/
theorem request_effect (P : Platform) (s : State) (q : Request) :
    (((keys P).next s (.request q)).db.rows = s.db.rows ∧
      ((keys P).next s (.request q)).generated = s.generated) ∨
    ∃ reply log e f, (keys P).answer s (.request q) = some (.ok reply) ∧
      Effect P s.db.rows s.db.drawn s.db.nextId e f q reply log ∧
      e ≤ ((keys P).next s (.request q)).db.drawn ∧
      f ≤ ((keys P).next s (.request q)).db.nextId ∧
      ((keys P).next s (.request q)).db.rows = applyOps log s.db.rows ∧
      ((keys P).next s (.request q)).generated =
        (generation q (.ok reply)).toList ++ s.generated := by
  rcases Prog.transact_wlp (handle_effect (P := P) q s.db.drawn s.db.nextId) with
    ⟨err, he, hrows⟩ | ⟨reply, m, hok, heff, hd, hn, hrows⟩
  · refine Or.inl ⟨hrows, ?_⟩
    show (generation q ((handle P q).transact s.db).2).toList ++ s.generated = s.generated
    rw [he]
    cases q <;> rfl
  · refine Or.inr ⟨reply, m.log, m.drawn, m.nextId, congrArg some hok, heff, hd, hn, hrows, ?_⟩
    show (generation q ((handle P q).transact s.db).2).toList ++ s.generated = _
    rw [hok]

/-- A step never gives a random number or a record id back. -/
theorem next_counters (P : Platform) (s : State) (a : Step) :
    s.db.drawn ≤ ((keys P).next s a).db.drawn ∧
      s.db.nextId ≤ ((keys P).next s a).db.nextId := by
  cases a with
  | request q => exact (Prog.transact_frame (handle P q) s.db).2.2
  | tick now => exact ⟨Nat.le_refl _, Nat.le_refl _⟩

end SsiRest.ApiKey
