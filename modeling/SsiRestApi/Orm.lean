import SsiRestApi.Lib.Tx
import SsiRestApi.Platform

/-!
# Record operations and their access checks

`create`, `write` and `unlink` of a model as an environment performs them: under
`sudo()` every check is skipped, else the access list must grant the mode and the
record rules must admit every record, before a write or deletion and after a
creation.

    checkAccess returns ↔ the operation is granted    (wlp_checkAccess)
-/

namespace SsiRest

open Tx Acl

/-- The caller, and whether the checks are bypassed. -/
structure Env where
  user : User
  su : Bool
  deriving DecidableEq

/-- `sudo()`. -/
def Env.sudo (env : Env) : Env := { env with su := true }

/-- A model: its name, access list and record rules. -/
structure Model (ρ : Type) where
  name : String
  security : Security Group ρ

namespace Orm

variable {κ ρ υ : Type} [Update υ ρ] (M : Model ρ)

def accessError : Exn := .userError .accessError 403 M.name

def missingError : Exn := .userError .missingError 404 M.name

/-- `check_access(mode)` on the recordset `ids`.  A record that is gone is a `MissingError`, under
`sudo()` too. -/
def checkAccess (env : Env) (mode : Mode) (ids : List Nat) : Prog κ ρ υ Exn Unit := do
  require (env.su || M.security.hasAccess env.user mode) (accessError M)
  let rows ← getRows
  require (ids.all fun id => rows.any fun r => r.id == id) (missingError M)
  require (env.su || (rows.filter fun r => ids.contains r.id).all fun r =>
    M.security.passesRules env.user mode r.val) (accessError M)

def write (env : Env) (ids : List Nat) (vals : υ) : Prog κ ρ υ Exn Unit := do
  checkAccess M env .write ids
  writeAll vals ids

def unlink (env : Env) (ids : List Nat) : Prog κ ρ υ Exn Unit := do
  checkAccess M env .unlink ids
  unlinkAll ids

def create (env : Env) (val : ρ) : Prog κ ρ υ Exn Nat := do
  require (env.su || M.security.hasAccess env.user .create) (accessError M)
  let id ← createRow val
  require (env.su || M.security.passesRules env.user .create val) (accessError M)
  pure id

/-- What `check_access(mode)` comes to on these rows. -/
def accessResult (env : Env) (mode : Mode) (ids : List Nat) (rows : List (Row ρ)) :
    Except Exn Unit :=
  if env.su || M.security.hasAccess env.user mode then
    if ids.all fun id => rows.any fun r => r.id == id then
      if env.su || (rows.filter fun r => ids.contains r.id).all fun r =>
          M.security.passesRules env.user mode r.val then .ok ()
      else .error (accessError M)
    else .error (missingError M)
  else .error (accessError M)

theorem run_checkAccess (env : Env) (mode : Mode) (ids : List Nat) (db : Db κ ρ) :
    (checkAccess M env mode ids : Prog κ ρ υ Exn Unit).run db =
      (accessResult M env mode ids db.rows, db) := by
  unfold checkAccess accessResult
  simp only [Prog.run_bind, Prog.run_require, Prog.run_getRows]
  by_cases haccess : (env.su || M.security.hasAccess env.user mode) = true
  · rw [if_pos haccess, if_pos haccess]
    dsimp only
    by_cases hfound : (ids.all fun id => db.rows.any fun r => r.id == id) = true
    · rw [if_pos hfound, if_pos hfound]
      dsimp only
      split <;> rfl
    · rw [if_neg hfound, if_neg hfound]
  · rw [if_neg haccess, if_neg haccess]

theorem run_write (env : Env) (ids : List Nat) (vals : υ) (db : Db κ ρ) :
    (write M env ids vals).run db =
      match accessResult M env .write ids db.rows with
      | .ok _ => (.ok (), { db with rows := applyOps (ids.map fun id => .upd id vals) db.rows })
      | .error e => (.error e, db) := by
  unfold write
  rw [Prog.run_bind, run_checkAccess]
  cases accessResult M env .write ids db.rows with
  | ok _ => exact Prog.run_writeAll _ _ _
  | error e => rfl

/-- Under `sudo()` a check only looks for the records. -/
theorem accessResult_of_su {env : Env} (hsu : env.su = true) (mode : Mode) (ids : List Nat)
    (rows : List (Row ρ)) :
    accessResult M env mode ids rows =
      if ids.all fun id => rows.any fun r => r.id == id then .ok ()
      else .error (missingError M) := by
  simp [accessResult, hsu]

/-! ## What a check establishes -/

/-- The environment may do this to every record of the recordset. -/
structure Granted (env : Env) (mode : Mode) (ids : List Nat) (rows : List (Row ρ)) : Prop where
  access : env.su = true ∨ M.security.hasAccess env.user mode = true
  found : ∀ id ∈ ids, ∃ r ∈ rows, r.id = id
  rules : env.su = true ∨
    ∀ r ∈ rows, r.id ∈ ids → M.security.passesRules env.user mode r.val = true

variable {M}

theorem Granted.permits {env : Env} {mode : Mode} {ids : List Nat} {rows : List (Row ρ)}
    (h : Granted M env mode ids rows) (hsu : env.su = false) {r : Row ρ} (hr : r ∈ rows)
    (hid : r.id ∈ ids) : M.security.permits env.user mode r.val = true := by
  have hne : env.su ≠ true := by simp [hsu]
  unfold Security.permits
  rw [h.access.resolve_left hne, h.rules.resolve_left hne r hr hid]
  rfl

variable {c : κ} {rows : List (Row ρ)} {m : Mark ρ υ} {env : Env}

@[simp] theorem wlp_checkAccess {mode : Mode} {ids : List Nat} {Q : Unit → Mark ρ υ → Prop} :
    Prog.wlp c rows (checkAccess M env mode ids) m Q ↔
      (Granted M env mode ids (applyOps m.log rows) → Q () m) := by
  simp only [checkAccess, Prog.wlp_bind, Prog.wlp_require, Prog.wlp_getRows, Bool.or_eq_true,
    List.all_eq_true, List.any_eq_true, beq_iff_eq, List.mem_filter, List.contains_iff_mem]
  exact ⟨fun h g => h g.access g.found (g.rules.imp_right fun h r hr => h r hr.1 hr.2),
    fun h ha hf hr => h ⟨ha, hf, hr.imp_right fun h r hr hid => h r ⟨hr, hid⟩⟩⟩

@[simp] theorem wlp_write {ids : List Nat} {vals : υ} {Q : Unit → Mark ρ υ → Prop} :
    Prog.wlp c rows (write M env ids vals) m Q ↔
      (Granted M env .write ids (applyOps m.log rows) →
        Q () { m with log := m.log ++ ids.map fun id => .upd id vals }) := by
  simp [write]

@[simp] theorem wlp_unlink {ids : List Nat} {Q : Unit → Mark ρ υ → Prop} :
    Prog.wlp c rows (unlink M env ids) m Q ↔
      (Granted M env .unlink ids (applyOps m.log rows) →
        Q () { m with log := m.log ++ ids.map .del }) := by
  simp [unlink]

@[simp] theorem wlp_create {val : ρ} {Q : Nat → Mark ρ υ → Prop} :
    Prog.wlp c rows (create M env val) m Q ↔
      ((env.su = true ∨ M.security.hasAccess env.user .create = true) →
        ∀ id, m.nextId ≤ id →
          (env.su = true ∨ M.security.passesRules env.user .create val = true) →
          Q id { m with nextId := id + 1, log := m.log ++ [.ins id val] }) := by
  simp [create]

end Orm

end SsiRest
