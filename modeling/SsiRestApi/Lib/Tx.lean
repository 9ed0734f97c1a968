import Mathlib.Data.List.Induction
import Mathlib.Data.List.Pairwise
import Mathlib.Logic.Unique

/-!
# Transaction programs

A program of one database transaction over one table it writes (`Row ρ`) and
read-only data `κ`: it reads, looks at the clock, draws a random number, creates,
updates and deletes rows, and ends with a value or an exception.  Row updates
are values of a type `υ` of their own, so that a table that only ever sees one
kind of update says so in its type.

* `Prog.run`: the program run alone on a database (rolled back by `transact`
  when it raises).
* `Prog.wp`: its weakest precondition over every clock, every random number and
  every row id not used before, with the log of row operations in the post-state.

    wp p … Q → the outcome of run satisfies Q          (wp_run)
-/

namespace Tx

/-- A table row and its database id. -/
structure Row (ρ : Type) where
  id : Nat
  val : ρ
  deriving DecidableEq

/-- What an update does to a row's values. -/
class Update (υ ρ : Type) where
  update : υ → ρ → ρ

export Update (update)

/-- One row operation of a transaction. -/
inductive RowOp (ρ υ : Type) where
  | ins (id : Nat) (val : ρ)
  | upd (id : Nat) (u : υ)
  | del (id : Nat)

namespace RowOp

variable {ρ υ : Type}

/-- The row the operation is about. -/
def target : RowOp ρ υ → Nat
  | ins id _ => id
  | upd id _ => id
  | del id => id

/-- The operation creates its row. -/
def isIns : RowOp ρ υ → Bool
  | ins _ _ => true
  | _ => false

@[simp] theorem isIns_ins (id : Nat) (val : ρ) : (ins (υ := υ) id val).isIns = true := rfl

@[simp] theorem isIns_upd (id : Nat) (u : υ) : (upd (ρ := ρ) id u).isIns = false := rfl

@[simp] theorem isIns_del (id : Nat) : (del (ρ := ρ) (υ := υ) id).isIns = false := rfl

/-- New rows come first: a search lists the newest row first. -/
def apply [Update υ ρ] : RowOp ρ υ → List (Row ρ) → List (Row ρ)
  | ins id val, rows => ⟨id, val⟩ :: rows
  | upd id u, rows => rows.map fun r => if r.id = id then ⟨r.id, update u r.val⟩ else r
  | del id, rows => rows.filter fun r => r.id ≠ id

variable [Update υ ρ]

@[simp] theorem apply_ins (id : Nat) (val : ρ) (rows : List (Row ρ)) :
    (ins (υ := υ) id val).apply rows = ⟨id, val⟩ :: rows := rfl

@[simp] theorem apply_upd (id : Nat) (u : υ) (rows : List (Row ρ)) :
    (upd id u).apply rows =
      rows.map fun r => if r.id = id then ⟨r.id, update u r.val⟩ else r := rfl

@[simp] theorem apply_del (id : Nat) (rows : List (Row ρ)) :
    (del (υ := υ) id).apply rows = rows.filter fun r => r.id ≠ id := rfl

end RowOp

/-- The row operations of a log, oldest first. -/
def applyOps {ρ υ : Type} [Update υ ρ] (log : List (RowOp ρ υ)) (rows : List (Row ρ)) :
    List (Row ρ) :=
  log.foldl (fun rows op => op.apply rows) rows

@[simp] theorem applyOps_nil {ρ υ : Type} [Update υ ρ] (rows : List (Row ρ)) :
    applyOps ([] : List (RowOp ρ υ)) rows = rows := rfl

@[simp] theorem applyOps_cons {ρ υ : Type} [Update υ ρ] (op : RowOp ρ υ)
    (log : List (RowOp ρ υ)) (rows : List (Row ρ)) :
    applyOps (op :: log) rows = applyOps log (op.apply rows) := rfl

/-- The rows with one id: none or one in a table whose ids are unique. -/
def rowsWith {ρ : Type} (id : Nat) (rows : List (Row ρ)) : List (Row ρ) :=
  rows.filter fun r => r.id = id

/-! ## What a log does to the rows -/

section Log

variable {ρ υ : Type}

/-- The log creates row `id`. -/
def Inserts (log : List (RowOp ρ υ)) (id : Nat) : Prop := ∃ val, RowOp.ins id val ∈ log

/-- The log updates or deletes row `id`. -/
def Touches (log : List (RowOp ρ υ)) (id : Nat) : Prop :=
  ∃ op ∈ log, op.isIns = false ∧ op.target = id

variable [Update υ ρ]

theorem applyOps_concat (log : List (RowOp ρ υ)) (op : RowOp ρ υ) (rows : List (Row ρ)) :
    applyOps (log ++ [op]) rows = op.apply (applyOps log rows) := by
  simp [applyOps]

/-- A row after one operation is a row before, perhaps updated, or new. -/
theorem mem_apply_rel {R : ρ → ρ → Prop} (hrefl : ∀ v, R v v) (hupd : ∀ (u : υ) v, R v (update u v))
    {op : RowOp ρ υ} {rows : List (Row ρ)} {r : Row ρ} (h : r ∈ op.apply rows) :
    (∃ r' ∈ rows, r'.id = r.id ∧ R r'.val r.val) ∨ op = .ins r.id r.val := by
  cases op with
  | ins id val =>
    rcases List.mem_cons.mp h with rfl | h
    · exact Or.inr rfl
    · exact Or.inl ⟨r, h, rfl, hrefl _⟩
  | upd id u =>
    obtain ⟨r', hr', rfl⟩ := List.mem_map.mp h
    refine Or.inl ⟨r', hr', ?_⟩
    split
    · exact ⟨rfl, hupd u _⟩
    · exact ⟨rfl, hrefl _⟩
  | del id => exact Or.inl ⟨r, (List.mem_filter.mp h).1, rfl, hrefl _⟩

/-- A row after a log comes, through updates, from a row before or from one the log created. -/
theorem mem_applyOps_rel {R : ρ → ρ → Prop} (hrefl : ∀ v, R v v)
    (hupd : ∀ (u : υ) v w, R v w → R v (update u w)) {log : List (RowOp ρ υ)} {rows : List (Row ρ)}
    {r : Row ρ} (h : r ∈ applyOps log rows) :
    (∃ r' ∈ rows, r'.id = r.id ∧ R r'.val r.val) ∨
      ∃ val, RowOp.ins r.id val ∈ log ∧ R val r.val := by
  induction log using List.reverseRecOn generalizing r with
  | nil => exact Or.inl ⟨r, h, rfl, hrefl _⟩
  | append_singleton log op ih =>
    rw [applyOps_concat] at h
    have hstep := mem_apply_rel (R := fun v w => ∀ x, R x v → R x w) (fun _ _ h => h)
      (fun u v x hx => hupd u x v hx) h
    rcases hstep with ⟨r', hr', he, hR⟩ | rfl
    · rcases ih hr' with ⟨r'', hr'', he', hR'⟩ | ⟨val, hv, hR'⟩
      · exact Or.inl ⟨r'', hr'', he'.trans he, hR _ hR'⟩
      · exact Or.inr ⟨val, List.mem_append_left _ (he ▸ hv), hR _ hR'⟩
    · exact Or.inr ⟨r.val, by simp, hrefl _⟩

/-- A row after a log was there before, or the log created it. -/
theorem mem_applyOps {log : List (RowOp ρ υ)} {rows : List (Row ρ)} {r : Row ρ}
    (h : r ∈ applyOps log rows) : (∃ r' ∈ rows, r'.id = r.id) ∨ Inserts log r.id := by
  rcases mem_applyOps_rel (R := fun _ _ => True) (fun _ => trivial) (fun _ _ _ _ => trivial) h with
    ⟨r', hr', he, -⟩ | ⟨val, hv, -⟩
  · exact Or.inl ⟨r', hr', he⟩
  · exact Or.inr ⟨val, hv⟩

/-- What every operation of a log keeps, the log keeps. -/
theorem applyOps_induction {I : List (Row ρ) → Prop} {log : List (RowOp ρ υ)}
    (hstep : ∀ op ∈ log, ∀ rows, I rows → I (op.apply rows)) {rows : List (Row ρ)} (h : I rows) :
    I (applyOps log rows) := by
  induction log generalizing rows with
  | nil => exact h
  | cons op log ih =>
    exact ih (fun o ho => hstep o (List.mem_cons_of_mem _ ho)) (hstep op List.mem_cons_self _ h)

theorem rowsWith_apply {op : RowOp ρ υ} {rows : List (Row ρ)} {id : Nat} (h : op.target ≠ id) :
    rowsWith id (op.apply rows) = rowsWith id rows := by
  cases op with
  | ins i val =>
    have hi : i ≠ id := h
    simp [rowsWith, hi]
  | upd i u =>
    have hi : i ≠ id := h
    unfold rowsWith
    induction rows with
    | nil => rfl
    | cons r rows ih =>
      rw [RowOp.apply_upd] at ih ⊢
      rw [List.map_cons, List.filter_cons, List.filter_cons, ih]
      by_cases hr : r.id = i
      · simp [hr, hi]
      · simp [hr]
  | del i =>
    have hi : i ≠ id := h
    unfold rowsWith
    rw [RowOp.apply_del, List.filter_filter]
    refine List.filter_congr fun r _ => ?_
    by_cases hr : r.id = id
    · simp [hr, Ne.symm hi]
    · simp [hr]

/-- A log leaves the rows it does not name alone. -/
theorem rowsWith_applyOps {log : List (RowOp ρ υ)} {rows : List (Row ρ)} {id : Nat}
    (h : ∀ op ∈ log, op.target ≠ id) : rowsWith id (applyOps log rows) = rowsWith id rows := by
  induction log generalizing rows with
  | nil => rfl
  | cons op log ih =>
    rw [applyOps_cons, ih fun o ho => h o (List.mem_cons_of_mem _ ho),
      rowsWith_apply (h op List.mem_cons_self)]

/-- One update of a whole recordset: each row is as before or has it applied to it, once if
once more changes nothing. -/
theorem mem_applyOps_upd {u : υ} (hidem : ∀ v : ρ, update u (update u v) = update u v)
    {ids : List Nat} {rows : List (Row ρ)} {r : Row ρ}
    (h : r ∈ applyOps (ids.map fun id => .upd id u) rows) :
    ∃ r' ∈ rows, r'.id = r.id ∧ (r.val = r'.val ∨ r.id ∈ ids ∧ r.val = update u r'.val) := by
  induction ids generalizing rows with
  | nil => exact ⟨r, h, rfl, Or.inl rfl⟩
  | cons id ids ih =>
    obtain ⟨r', hr', he, hval⟩ := ih h
    obtain ⟨r'', hr'', rfl⟩ := List.mem_map.mp hr'
    refine ⟨r'', hr'', ?_⟩
    split at he
    · next hid =>
      subst hid
      rw [if_pos rfl, hidem] at hval
      exact ⟨he, Or.inr ⟨by simp [← he], hval.elim id And.right⟩⟩
    · next hid =>
      rw [if_neg hid] at hval
      exact ⟨he, hval.imp_right fun h => ⟨List.mem_cons_of_mem _ h.1, h.2⟩⟩

/-- A deletion leaves only rows that were there. -/
theorem mem_of_applyOps_del {ids : List Nat} {rows : List (Row ρ)} {r : Row ρ}
    (h : r ∈ applyOps (ids.map (.del (υ := υ))) rows) : r ∈ rows := by
  induction ids generalizing rows with
  | nil => exact h
  | cons id ids ih => exact (List.mem_filter.mp (ih h)).1

theorem applyOps_del (ids : List Nat) (rows : List (Row ρ)) :
    applyOps (ids.map (.del (υ := υ))) rows = rows.filter fun r => !ids.contains r.id := by
  induction ids generalizing rows with
  | nil => exact (List.filter_eq_self.mpr fun _ _ => rfl).symm
  | cons id ids ih =>
    rw [List.map_cons, applyOps_cons, ih, RowOp.apply_del, List.filter_filter]
    refine List.filter_congr fun r _ => ?_
    rw [List.contains_cons]
    by_cases h : r.id = id <;> simp [h]

/-- Row ids are unique, and those from `n` on are free. -/
structure Numbered (n : Nat) (rows : List (Row ρ)) : Prop where
  distinct : rows.Pairwise fun r r' => r.id ≠ r'.id
  known : ∀ r ∈ rows, r.id < n

omit [Update υ ρ] in
theorem Numbered.mono {n n' : Nat} {rows : List (Row ρ)} (h : Numbered n rows) (hn : n ≤ n') :
    Numbered n' rows :=
  ⟨h.distinct, fun r hr => Nat.lt_of_lt_of_le (h.known r hr) hn⟩

omit [Update υ ρ] in
theorem Numbered.ins {n id : Nat} {rows : List (Row ρ)} (h : Numbered n rows) (hid : n ≤ id)
    (val : ρ) : Numbered (id + 1) (⟨id, val⟩ :: rows) where
  distinct := List.pairwise_cons.mpr ⟨fun r hr => by
    have := h.known r hr
    dsimp only
    omega, h.distinct⟩
  known := List.forall_mem_cons.mpr
    ⟨Nat.lt_succ_self id, (h.mono (Nat.le_succ_of_le hid)).known⟩

/-- An update or a deletion gives no id away. -/
theorem Numbered.change {n : Nat} {rows : List (Row ρ)} (h : Numbered n rows) (op : RowOp ρ υ)
    (hop : op.isIns = false) : Numbered n (op.apply rows) := by
  cases op with
  | ins id val => cases hop
  | upd id u =>
    have hsame : ∀ r : Row ρ, (if r.id = id then ⟨r.id, update u r.val⟩ else r).id = r.id :=
      fun r => by split <;> rfl
    refine ⟨List.pairwise_map.mpr (h.distinct.imp fun hne => ?_), fun r hr => ?_⟩
    · rwa [hsame, hsame]
    · obtain ⟨r', hr', rfl⟩ := List.mem_map.mp hr
      rw [hsame]
      exact h.known r' hr'
  | del id =>
    exact ⟨h.distinct.filter _, fun r hr => h.known r (List.mem_filter.mp hr).1⟩

omit [Update υ ρ] in
/-- The id determines the row. -/
theorem Numbered.eq_of_id {n : Nat} {rows : List (Row ρ)} (h : Numbered n rows) {r r' : Row ρ}
    (hr : r ∈ rows) (hr' : r' ∈ rows) (hid : r.id = r'.id) : r = r' := by
  have : Std.Symm fun r r' : Row ρ => r.id ≠ r'.id := ⟨fun _ _ hne => hne.symm⟩
  by_contra hne
  exact h.distinct.forall hr hr' hne hid

end Log

/-! ## Programs -/

inductive Prog (κ ρ υ ε α : Type) where
  | pure (a : α)
  | raise (e : ε)
  | read (k : κ → List (Row ρ) → Prog κ ρ υ ε α)
  | now (k : Int → Prog κ ρ υ ε α)
  | draw (k : Nat → Prog κ ρ υ ε α)
  | create (val : ρ) (k : Nat → Prog κ ρ υ ε α)
  | write (id : Nat) (u : υ) (k : Prog κ ρ υ ε α)
  | unlink (id : Nat) (k : Prog κ ρ υ ε α)

namespace Prog

variable {κ ρ υ ε α β : Type}

def bind : Prog κ ρ υ ε α → (α → Prog κ ρ υ ε β) → Prog κ ρ υ ε β
  | pure a, f => f a
  | raise e, _ => raise e
  | read k, f => read fun c rows => (k c rows).bind f
  | now k, f => now fun t => (k t).bind f
  | draw k, f => draw fun i => (k i).bind f
  | create val k, f => create val fun id => (k id).bind f
  | write id u k, f => write id u (k.bind f)
  | unlink id k, f => unlink id (k.bind f)

instance : Monad (Prog κ ρ υ ε) where
  pure := pure
  bind := bind

/-- The read-only tables. -/
def getContext : Prog κ ρ υ ε κ := read fun c _ => pure c

/-- The current rows, own writes included. -/
def getRows : Prog κ ρ υ ε (List (Row ρ)) := read fun _ rows => pure rows

def getNow : Prog κ ρ υ ε Int := now pure

def getDraw : Prog κ ρ υ ε Nat := draw pure

def createRow (val : ρ) : Prog κ ρ υ ε Nat := create val pure

def writeRow (id : Nat) (u : υ) : Prog κ ρ υ ε Unit := write id u (pure ())

/-- Update every row of a recordset. -/
def writeAll (u : υ) : List Nat → Prog κ ρ υ ε Unit
  | [] => pure ()
  | id :: ids => write id u (writeAll u ids)

/-- Delete every row of a recordset. -/
def unlinkAll : List Nat → Prog κ ρ υ ε Unit
  | [] => pure ()
  | id :: ids => unlink id (unlinkAll ids)

/-- `raise e` inside a `do` block of any result type. -/
def throwing (e : ε) : Prog κ ρ υ ε α := raise e

/-- Raise unless the condition holds. -/
def require (c : Bool) (e : ε) : Prog κ ρ υ ε Unit := if c then pure () else raise e

/-- Raise when there is no value. -/
def ofOption (o : Option α) (e : ε) : Prog κ ρ υ ε α :=
  match o with
  | some a => pure a
  | none => raise e

/-- Lift a computation that touches no table. -/
def ofExcept : Except ε α → Prog κ ρ υ ε α
  | .ok a => pure a
  | .error e => raise e

/-! ## Running alone -/

end Prog

/-- A database: read-only tables, rows, clock, and the counters behind random
numbers and row ids. -/
structure Db (κ ρ : Type) where
  ctx : κ
  rows : List (Row ρ)
  now : Int
  drawn : Nat
  nextId : Nat

namespace Prog

variable {κ ρ υ ε α β : Type} [Update υ ρ]

def run : Prog κ ρ υ ε α → Db κ ρ → Except ε α × Db κ ρ
  | pure a, db => (.ok a, db)
  | raise e, db => (.error e, db)
  | read k, db => (k db.ctx db.rows).run db
  | now k, db => (k db.now).run db
  | draw k, db => (k db.drawn).run { db with drawn := db.drawn + 1 }
  | create val k, db =>
    (k db.nextId).run
      { db with rows := (RowOp.ins (υ := υ) db.nextId val).apply db.rows, nextId := db.nextId + 1 }
  | write id u k, db => k.run { db with rows := (RowOp.upd id u).apply db.rows }
  | unlink id k, db => k.run { db with rows := (RowOp.del (υ := υ) id).apply db.rows }

section Run

variable (db : Db κ ρ)

@[simp] theorem run_pure (a : α) : (Pure.pure a : Prog κ ρ υ ε α).run db = (.ok a, db) := rfl

@[simp] theorem run_throwing (e : ε) :
    (throwing e : Prog κ ρ υ ε α).run db = (.error e, db) := rfl

@[simp] theorem run_bind (p : Prog κ ρ υ ε β) (f : β → Prog κ ρ υ ε α) :
    (p >>= f).run db =
      match p.run db with
      | (.ok b, db') => (f b).run db'
      | (.error e, db') => (.error e, db') := by
  show (p.bind f).run db = _
  induction p generalizing db with
  | pure b => rfl
  | raise e => rfl
  | read k ih => exact ih _ _ _
  | now k ih => exact ih _ _
  | draw k ih => exact ih _ _
  | create val k ih => exact ih _ _
  | write id u k ih => exact ih _
  | unlink id k ih => exact ih _

@[simp] theorem run_getContext :
    (getContext : Prog κ ρ υ ε κ).run db = (.ok db.ctx, db) := rfl

@[simp] theorem run_getRows :
    (getRows : Prog κ ρ υ ε (List (Row ρ))).run db = (.ok db.rows, db) := rfl

@[simp] theorem run_getNow : (getNow : Prog κ ρ υ ε Int).run db = (.ok db.now, db) := rfl

@[simp] theorem run_getDraw :
    (getDraw : Prog κ ρ υ ε Nat).run db = (.ok db.drawn, { db with drawn := db.drawn + 1 }) := rfl

@[simp] theorem run_createRow (val : ρ) :
    (createRow val : Prog κ ρ υ ε Nat).run db =
      (.ok db.nextId, { db with rows := ⟨db.nextId, val⟩ :: db.rows, nextId := db.nextId + 1 }) :=
  rfl

@[simp] theorem run_writeRow (id : Nat) (u : υ) :
    (writeRow id u : Prog κ ρ υ ε Unit).run db =
      (.ok (), { db with rows := (RowOp.upd id u).apply db.rows }) := rfl

theorem run_writeAll (u : υ) (ids : List Nat) :
    (writeAll u ids : Prog κ ρ υ ε Unit).run db =
      (.ok (), { db with rows := applyOps (ids.map fun id => .upd id u) db.rows }) := by
  induction ids generalizing db with
  | nil => rfl
  | cons id ids ih => exact ih _

theorem run_unlinkAll (ids : List Nat) :
    (unlinkAll ids : Prog κ ρ υ ε Unit).run db =
      (.ok (), { db with rows := applyOps (ids.map (.del (υ := υ))) db.rows }) := by
  induction ids generalizing db with
  | nil => rfl
  | cons id ids ih => exact ih _

@[simp] theorem run_require (b : Bool) (e : ε) :
    (require b e : Prog κ ρ υ ε Unit).run db = if b then (.ok (), db) else (.error e, db) := by
  cases b <;> rfl

@[simp] theorem run_ofOption (o : Option α) (e : ε) :
    (ofOption o e : Prog κ ρ υ ε α).run db =
      match o with
      | some a => (.ok a, db)
      | none => (.error e, db) := by
  cases o <;> rfl

@[simp] theorem run_ofExcept (r : Except ε α) :
    (ofExcept r : Prog κ ρ υ ε α).run db = (r, db) := by
  cases r <;> rfl

/-! ## Runs that return -/

variable {db} {db' : Db κ ρ}

theorem run_pure_ok {a a' : α} :
    (Pure.pure a : Prog κ ρ υ ε α).run db = (.ok a', db') ↔ a = a' ∧ db = db' := by
  rw [run_pure, Prod.mk.injEq, Except.ok.injEq]

theorem run_bind_ok {p : Prog κ ρ υ ε β} {f : β → Prog κ ρ υ ε α} {a : α} :
    (p >>= f).run db = (.ok a, db') ↔
      ∃ b db₁, p.run db = (.ok b, db₁) ∧ (f b).run db₁ = (.ok a, db') := by
  rw [run_bind]
  constructor
  · intro h
    split at h
    · next b db₁ hp => exact ⟨b, db₁, hp, h⟩
    · cases h
  · rintro ⟨b, db₁, hp, h⟩
    rw [hp]
    exact h

theorem run_require_ok {c : Bool} {e : ε} {u : Unit} :
    (require c e : Prog κ ρ υ ε Unit).run db = (.ok u, db') ↔ c = true ∧ db = db' := by
  cases c <;> simp

theorem run_ofOption_ok {o : Option α} {e : ε} {a : α} :
    (ofOption o e : Prog κ ρ υ ε α).run db = (.ok a, db') ↔ o = some a ∧ db = db' := by
  cases o <;> simp

theorem run_ofExcept_ok {r : Except ε α} {a : α} :
    (ofExcept r : Prog κ ρ υ ε α).run db = (.ok a, db') ↔ r = .ok a ∧ db = db' := by
  rw [run_ofExcept, Prod.mk.injEq]

end Run

/-- One request: committed when it returns, rolled back when it raises. -/
def transact (p : Prog κ ρ υ ε α) (db : Db κ ρ) : Db κ ρ × Except ε α :=
  match p.run db with
  | (.ok a, db') => (db', .ok a)
  | (.error e, db') => ({ db' with rows := db.rows }, .error e)

theorem transact_ok_iff {p : Prog κ ρ υ ε α} {db db' : Db κ ρ} {a : α} :
    p.transact db = (db', .ok a) ↔ p.run db = (.ok a, db') := by
  unfold transact
  rcases p.run db with ⟨r, db₁⟩
  cases r <;> simp [and_comm]

/-- A request that raises leaves the rows as they were. -/
theorem transact_rows_of_error {p : Prog κ ρ υ ε α} {db : Db κ ρ} {e : ε}
    (h : (p.transact db).2 = .error e) : (p.transact db).1.rows = db.rows := by
  unfold transact at h ⊢
  split
  · next hr => simp [hr] at h
  · rfl

/-- A property of the rows that the request starts with holds of those it leaves exactly when
it holds whenever the program returns. -/
theorem transact_rows_iff {I : List (Row ρ) → Prop} {p : Prog κ ρ υ ε α} {db : Db κ ρ}
    (h : I db.rows) :
    I (p.transact db).1.rows ↔ ∀ a db', p.run db = (.ok a, db') → I db'.rows := by
  unfold transact
  rcases hr : p.run db with ⟨r, db₁⟩
  cases r with
  | ok a =>
    constructor
    · intro hi a' db' he
      cases he
      exact hi
    · exact fun hall => hall a db₁ rfl
  | error e => exact iff_of_true h fun a db' he => by cases he

/-! ## Weakest preconditions -/

end Prog

/-- How far a transaction has come: the counters it has passed, the random numbers it drew and
its row operations. -/
structure Mark (ρ υ : Type) where
  drawn : Nat
  nextId : Nat
  draws : List Nat
  log : List (RowOp ρ υ)

/-- A transaction that has done nothing yet. -/
def Mark.start {ρ υ : Type} (d n : Nat) : Mark ρ υ := ⟨d, n, [], []⟩

@[simp] theorem Mark.start_drawn {ρ υ : Type} (d n : Nat) : (start d n : Mark ρ υ).drawn = d := rfl

@[simp] theorem Mark.start_nextId {ρ υ : Type} (d n : Nat) :
    (start d n : Mark ρ υ).nextId = n := rfl

@[simp] theorem Mark.start_draws {ρ υ : Type} (d n : Nat) : (start d n : Mark ρ υ).draws = [] := rfl

@[simp] theorem Mark.start_log {ρ υ : Type} (d n : Nat) : (start d n : Mark ρ υ).log = [] := rfl

namespace Prog

variable {κ ρ υ ε α β : Type} [Update υ ρ]

/-- Every outcome of the program on the snapshot `(c, rows)` satisfies `Q`,
whatever the clock says and whichever unused numbers and ids it is given. -/
def wp (c : κ) (rows : List (Row ρ)) : Prog κ ρ υ ε α → Mark ρ υ →
    (Except ε α → Mark ρ υ → Prop) → Prop
  | pure a, m, Q => Q (.ok a) m
  | raise e, m, Q => Q (.error e) m
  | read k, m, Q => (k c (applyOps m.log rows)).wp c rows m Q
  | now k, m, Q => ∀ t, (k t).wp c rows m Q
  | draw k, m, Q => ∀ i, m.drawn ≤ i →
      (k i).wp c rows { m with drawn := i + 1, draws := m.draws ++ [i] } Q
  | create val k, m, Q => ∀ id, m.nextId ≤ id →
      (k id).wp c rows { m with nextId := id + 1, log := m.log ++ [.ins id val] } Q
  | write id u k, m, Q => k.wp c rows { m with log := m.log ++ [.upd id u] } Q
  | unlink id k, m, Q => k.wp c rows { m with log := m.log ++ [.del id] } Q

section Rules

variable {c : κ} {rows : List (Row ρ)} {m : Mark ρ υ} {Q : Except ε α → Mark ρ υ → Prop}

@[simp] theorem wp_pure (a : α) : wp c rows (Pure.pure a) m Q ↔ Q (.ok a) m := Iff.rfl

@[simp] theorem wp_throwing (e : ε) : wp c rows (throwing e) m Q ↔ Q (.error e) m := Iff.rfl

@[simp] theorem wp_getContext {Q : Except ε κ → Mark ρ υ → Prop} :
    wp c rows getContext m Q ↔ Q (.ok c) m := Iff.rfl

@[simp] theorem wp_getRows {Q : Except ε (List (Row ρ)) → Mark ρ υ → Prop} :
    wp c rows getRows m Q ↔ Q (.ok (applyOps m.log rows)) m := Iff.rfl

@[simp] theorem wp_getNow {Q : Except ε Int → Mark ρ υ → Prop} :
    wp c rows getNow m Q ↔ ∀ t, Q (.ok t) m := Iff.rfl

@[simp] theorem wp_getDraw {Q : Except ε Nat → Mark ρ υ → Prop} :
    wp c rows getDraw m Q ↔ ∀ i, m.drawn ≤ i →
      Q (.ok i) { m with drawn := i + 1, draws := m.draws ++ [i] } := Iff.rfl

@[simp] theorem wp_createRow (val : ρ) {Q : Except ε Nat → Mark ρ υ → Prop} :
    wp c rows (createRow val) m Q ↔ ∀ id, m.nextId ≤ id →
      Q (.ok id) { m with nextId := id + 1, log := m.log ++ [.ins id val] } := Iff.rfl

@[simp] theorem wp_writeRow (id : Nat) (u : υ) {Q : Except ε Unit → Mark ρ υ → Prop} :
    wp c rows (writeRow id u) m Q ↔ Q (.ok ()) { m with log := m.log ++ [.upd id u] } := Iff.rfl

@[simp] theorem wp_ofExcept (r : Except ε α) : wp c rows (ofExcept r) m Q ↔ Q r m := by
  cases r <;> exact Iff.rfl

theorem wp_writeAll (u : υ) (ids : List Nat) {Q : Except ε Unit → Mark ρ υ → Prop} :
    wp c rows (writeAll u ids) m Q ↔
      Q (.ok ()) { m with log := m.log ++ ids.map fun id => .upd id u } := by
  induction ids generalizing m with
  | nil => simp [writeAll, wp]
  | cons id ids ih => simp [writeAll, wp, ih]

theorem wp_unlinkAll (ids : List Nat) {Q : Except ε Unit → Mark ρ υ → Prop} :
    wp c rows (unlinkAll ids) m Q ↔ Q (.ok ()) { m with log := m.log ++ ids.map .del } := by
  induction ids generalizing m with
  | nil => simp [unlinkAll, wp]
  | cons id ids ih => simp [unlinkAll, wp, ih]

/-- The rule of sequencing. -/
@[simp] theorem wp_bind (p : Prog κ ρ υ ε β) (f : β → Prog κ ρ υ ε α) :
    wp c rows (p >>= f) m Q ↔ wp c rows p m fun r m' =>
      match r with
      | .ok b => wp c rows (f b) m' Q
      | .error e => Q (.error e) m' := by
  show wp c rows (p.bind f) m Q ↔ _
  induction p generalizing m with
  | pure b => exact Iff.rfl
  | raise e => exact Iff.rfl
  | read k ih => exact ih _ _
  | now k ih => exact forall_congr' fun t => ih t
  | draw k ih => exact forall_congr' fun i => imp_congr_right fun _ => ih i
  | create val k ih => exact forall_congr' fun id => imp_congr_right fun _ => ih id
  | write id u k ih => exact ih
  | unlink id k ih => exact ih

/-- The rule of consequence. -/
theorem wp_mono {Q' : Except ε α → Mark ρ υ → Prop} (p : Prog κ ρ υ ε α) (h : wp c rows p m Q)
    (hq : ∀ r m', Q r m' → Q' r m') : wp c rows p m Q' := by
  induction p generalizing m with
  | pure a => exact hq _ _ h
  | raise e => exact hq _ _ h
  | read k ih => exact ih _ _ h
  | now k ih => exact fun t => ih t (h t)
  | draw k ih => exact fun i hi => ih i (h i hi)
  | create val k ih => exact fun id hid => ih id (h id hid)
  | write id u k ih => exact ih h
  | unlink id k ih => exact ih h

theorem wp_true (p : Prog κ ρ υ ε α) (c : κ) (rows : List (Row ρ)) (m : Mark ρ υ) :
    wp c rows p m fun _ _ => True := by
  induction p generalizing m with
  | pure a => trivial
  | raise e => trivial
  | read k ih => exact ih _ _ _
  | now k ih => exact fun t => ih t _
  | draw k ih => exact fun i _ => ih i _
  | create val k ih => exact fun id _ => ih id _
  | write id u k ih => exact ih _
  | unlink id k ih => exact ih _

end Rules

/-! ## Outcomes that return

`wlp` looks only at the outcomes that return a value: a raised exception is
rolled back and needs no postcondition. -/

section Wlp

variable {c : κ} {rows : List (Row ρ)} {m : Mark ρ υ} {Q : α → Mark ρ υ → Prop}

def wlp (c : κ) (rows : List (Row ρ)) (p : Prog κ ρ υ ε α) (m : Mark ρ υ)
    (Q : α → Mark ρ υ → Prop) : Prop :=
  wp c rows p m fun r m' => ∀ a, r = .ok a → Q a m'

@[simp] theorem wlp_pure (a : α) : wlp c rows (Pure.pure a : Prog κ ρ υ ε α) m Q ↔ Q a m := by
  simp [wlp]

@[simp] theorem wlp_throwing (e : ε) : wlp c rows (throwing e) m Q ↔ True := by
  simp [wlp]

@[simp] theorem wlp_bind (p : Prog κ ρ υ ε β) (f : β → Prog κ ρ υ ε α) :
    wlp c rows (p >>= f) m Q ↔ wlp c rows p m fun b m' => wlp c rows (f b) m' Q := by
  unfold wlp
  rw [wp_bind]
  constructor
  · intro h
    refine wp_mono p h fun r m' hr b hb => ?_
    subst hb
    exact hr
  · intro h
    refine wp_mono p h fun r m' hr => ?_
    cases r with
    | ok b => exact hr b rfl
    | error e => exact fun a ha => by cases ha

@[simp] theorem wlp_getContext {Q : κ → Mark ρ υ → Prop} :
    wlp c rows (getContext : Prog κ ρ υ ε κ) m Q ↔ Q c m := by simp [wlp]

@[simp] theorem wlp_getRows {Q : List (Row ρ) → Mark ρ υ → Prop} :
    wlp c rows (getRows : Prog κ ρ υ ε (List (Row ρ))) m Q ↔ Q (applyOps m.log rows) m := by
  simp [wlp]

@[simp] theorem wlp_getNow {Q : Int → Mark ρ υ → Prop} :
    wlp c rows (getNow : Prog κ ρ υ ε Int) m Q ↔ ∀ t, Q t m := by simp [wlp]

@[simp] theorem wlp_getDraw {Q : Nat → Mark ρ υ → Prop} :
    wlp c rows (getDraw : Prog κ ρ υ ε Nat) m Q ↔
      ∀ i, m.drawn ≤ i → Q i { m with drawn := i + 1, draws := m.draws ++ [i] } := by simp [wlp]

@[simp] theorem wlp_createRow (val : ρ) {Q : Nat → Mark ρ υ → Prop} :
    wlp c rows (createRow val : Prog κ ρ υ ε Nat) m Q ↔ ∀ id, m.nextId ≤ id →
      Q id { m with nextId := id + 1, log := m.log ++ [.ins id val] } := by simp [wlp]

@[simp] theorem wlp_writeRow (id : Nat) (u : υ) {Q : Unit → Mark ρ υ → Prop} :
    wlp c rows (writeRow id u : Prog κ ρ υ ε Unit) m Q ↔
      Q () { m with log := m.log ++ [.upd id u] } := by
  simp [wlp, Unique.forall_iff]

@[simp] theorem wlp_writeAll (u : υ) (ids : List Nat) {Q : Unit → Mark ρ υ → Prop} :
    wlp c rows (writeAll u ids : Prog κ ρ υ ε Unit) m Q ↔
      Q () { m with log := m.log ++ ids.map fun id => .upd id u } := by
  simp [wlp, wp_writeAll, Unique.forall_iff]

@[simp] theorem wlp_unlinkAll (ids : List Nat) {Q : Unit → Mark ρ υ → Prop} :
    wlp c rows (unlinkAll ids : Prog κ ρ υ ε Unit) m Q ↔
      Q () { m with log := m.log ++ ids.map .del } := by
  simp [wlp, wp_unlinkAll, Unique.forall_iff]

@[simp] theorem wlp_ofExcept (r : Except ε α) :
    wlp c rows (ofExcept r) m Q ↔ ∀ a, r = .ok a → Q a m := by simp [wlp]

@[simp] theorem wlp_require (b : Bool) (e : ε) {Q : Unit → Mark ρ υ → Prop} :
    wlp c rows (require b e : Prog κ ρ υ ε Unit) m Q ↔ (b = true → Q () m) := by
  cases b <;> simp [wlp, require, wp, Unique.forall_iff]

@[simp] theorem wlp_ofOption (o : Option α) (e : ε) :
    wlp c rows (ofOption o e) m Q ↔ ∀ a, o = some a → Q a m := by
  cases o <;> simp [wlp, ofOption, wp]

end Wlp

/-! ## The program run alone meets its weakest precondition -/

/-- A run that has come to `m` on the snapshot `rows`. -/
structure At (c : κ) (rows : List (Row ρ)) (m : Mark ρ υ) (db : Db κ ρ) : Prop where
  ctx : db.ctx = c
  rows : db.rows = applyOps m.log rows
  drawn : m.drawn ≤ db.drawn
  nextId : m.nextId ≤ db.nextId

theorem wp_run {c : κ} {rows : List (Row ρ)} {Q : Except ε α → Mark ρ υ → Prop}
    (p : Prog κ ρ υ ε α) (m : Mark ρ υ) (db : Db κ ρ) (hat : At c rows m db)
    (h : wp c rows p m Q) :
    ∃ m', Q (p.run db).1 m' ∧ At c rows m' (p.run db).2 ∧ (p.run db).2.now = db.now ∧
      db.drawn ≤ (p.run db).2.drawn ∧ db.nextId ≤ (p.run db).2.nextId := by
  induction p generalizing m db with
  | pure a => exact ⟨m, h, hat, rfl, Nat.le_refl _, Nat.le_refl _⟩
  | raise e => exact ⟨m, h, hat, rfl, Nat.le_refl _, Nat.le_refl _⟩
  | read k ih =>
    refine ih db.ctx db.rows m db hat ?_
    rw [hat.ctx, hat.rows]
    exact h
  | now k ih => exact ih db.now m db hat (h db.now)
  | draw k ih =>
    obtain ⟨m', hq, hat', hnow, hd, hn⟩ := ih db.drawn
      { m with drawn := db.drawn + 1, draws := m.draws ++ [db.drawn] }
      { db with drawn := db.drawn + 1 } ⟨hat.ctx, hat.rows, Nat.le_refl _, hat.nextId⟩
      (h db.drawn hat.drawn)
    exact ⟨m', hq, hat', hnow, Nat.le_of_succ_le hd, hn⟩
  | create val k ih =>
    obtain ⟨m', hq, hat', hnow, hd, hn⟩ := ih db.nextId
      { m with nextId := db.nextId + 1, log := m.log ++ [.ins db.nextId val] }
      { db with rows := (RowOp.ins (υ := υ) db.nextId val).apply db.rows, nextId := db.nextId + 1 }
      ⟨hat.ctx, by rw [applyOps_concat, ← hat.rows], hat.drawn, Nat.le_refl _⟩
      (h db.nextId hat.nextId)
    exact ⟨m', hq, hat', hnow, hd, Nat.le_of_succ_le hn⟩
  | write id u k ih =>
    exact ih { m with log := m.log ++ [.upd id u] }
      { db with rows := (RowOp.upd id u).apply db.rows }
      ⟨hat.ctx, by rw [applyOps_concat, ← hat.rows], hat.drawn, hat.nextId⟩ h
  | unlink id k ih =>
    exact ih { m with log := m.log ++ [.del id] }
      { db with rows := (RowOp.del (υ := υ) id).apply db.rows }
      ⟨hat.ctx, by rw [applyOps_concat, ← hat.rows], hat.drawn, hat.nextId⟩ h

/-- The precondition of a whole request on a database. -/
def Sat (p : Prog κ ρ υ ε α) (db : Db κ ρ) (Q : Except ε α → Mark ρ υ → Prop) : Prop :=
  wp db.ctx db.rows p (.start db.drawn db.nextId) Q

/-- What a request leaves behind: its log applied when it returns, nothing when it raises. -/
structure Outcome (db db' : Db κ ρ) (r : Except ε α) (m : Mark ρ υ) : Prop where
  ctx : db'.ctx = db.ctx
  now : db'.now = db.now
  drawn : db.drawn ≤ db'.drawn
  markDrawn : m.drawn ≤ db'.drawn
  nextId : db.nextId ≤ db'.nextId
  markNextId : m.nextId ≤ db'.nextId
  ok : ∀ a, r = .ok a → db'.rows = applyOps m.log db.rows
  error : ∀ e, r = .error e → db'.rows = db.rows

/-- **Adequacy.**  A request run alone ends in an outcome its precondition allows. -/
theorem transact_sat {Q : Except ε α → Mark ρ υ → Prop} {p : Prog κ ρ υ ε α} {db : Db κ ρ}
    (h : p.Sat db Q) :
    ∃ m, Q (p.transact db).2 m ∧ Outcome db (p.transact db).1 (p.transact db).2 m := by
  obtain ⟨m, hq, hat, hnow, hd, hn⟩ :=
    wp_run p (.start db.drawn db.nextId) db ⟨rfl, rfl, Nat.le_refl _, Nat.le_refl _⟩ h
  unfold transact
  rcases hr : p.run db with ⟨r, db'⟩
  rw [hr] at hq hat hnow hd hn
  cases r with
  | ok a =>
    exact ⟨m, hq, hat.ctx, hnow, hd, hat.drawn, hn, hat.nextId, fun _ _ => hat.rows,
      fun _ he => by cases he⟩
  | error e =>
    exact ⟨m, hq, hat.ctx, hnow, hd, hat.drawn, hn, hat.nextId, fun _ he => (by cases he),
      fun _ _ => rfl⟩

/-- A request that raised changed no row; one that returned met its postcondition and its
log was applied. -/
theorem transact_wlp {Q : α → Mark ρ υ → Prop} {p : Prog κ ρ υ ε α} {db : Db κ ρ}
    (h : wlp db.ctx db.rows p (.start db.drawn db.nextId) Q) :
    (∃ e, (p.transact db).2 = .error e ∧ (p.transact db).1.rows = db.rows) ∨
      ∃ a m, (p.transact db).2 = .ok a ∧ Q a m ∧ m.drawn ≤ (p.transact db).1.drawn ∧
        m.nextId ≤ (p.transact db).1.nextId ∧
        (p.transact db).1.rows = applyOps m.log db.rows := by
  obtain ⟨m, hq, hout⟩ := transact_sat h
  cases hr : (p.transact db).2 with
  | ok a => exact Or.inr ⟨a, m, rfl, hq a hr, hout.markDrawn, hout.markNextId, hout.ok a hr⟩
  | error e => exact Or.inl ⟨e, rfl, hout.error e hr⟩

theorem transact_frame (p : Prog κ ρ υ ε α) (db : Db κ ρ) :
    (p.transact db).1.ctx = db.ctx ∧ (p.transact db).1.now = db.now ∧
      db.drawn ≤ (p.transact db).1.drawn ∧ db.nextId ≤ (p.transact db).1.nextId := by
  have htrue : p.Sat db fun _ _ => True := wp_true p _ _ _
  obtain ⟨m, -, hout⟩ := transact_sat htrue
  exact ⟨hout.ctx, hout.now, hout.drawn, hout.nextId⟩

end Prog

export Prog (getContext getRows getNow getDraw createRow writeRow writeAll unlinkAll throwing
  require ofOption ofExcept)

end Tx
