import SsiRestApi.Orm

/-!
# Generated credentials

API keys and client secrets are generated alike: `_generate_new_…` draws a random
text, writes its hash and returns the raw value, and the button's
`action_generate_…` does so for every record as the superuser and returns the last
notification.

    a call goes through ↔ the recordset is not empty and every record exists
                          and passes the action's own check
                                                   (transact_actionGenerate)
    the caller's rights decide nothing; hence who may mint what (mintsOnlyPermitted_iff)
-/

namespace SsiRest

open Tx

/-- The notification a generated raw value is shown in. -/
structure Notification where
  title : String
  message : String
  deriving DecidableEq

/-- A kind of generated credential: the model that keeps its hash, and what is made of the
`i`-th random text. -/
structure Credential (P : Platform) (ρ υ : Type) [Update υ ρ] where
  model : Model ρ
  /-- What the action asks of a record. -/
  check : ρ → Except Exn Unit
  raw : Nat → String
  vals : Nat → υ
  hash : ρ → Option String
  title : String
  message : String
  hash_update : ∀ i r, hash (update (vals i) r) = some (P.crypt.hash i (raw i))
  check_update : ∀ i r, check (update (vals i) r) = check r

namespace Credential

variable {P : Platform} {κ ρ υ : Type} [Update υ ρ] (C : Credential P ρ υ)

def notification (raw : String) : Notification := ⟨C.title, C.message ++ raw⟩

/-- `_generate_new_key`, `_generate_new_client_secret`. -/
def generateNew (env : Env) (id : Nat) : Prog κ ρ υ Exn String := do
  let i ← getDraw
  Orm.write C.model env [id] (C.vals i)
  pure (C.raw i)

/-- `_generate_key_action`, `_generate_client_secret_action`. -/
def generateAction (env : Env) (id : Nat) : Prog κ ρ υ Exn Notification := do
  let rows ← getRows
  let record ← ofOption (rows.find? fun r => r.id == id) (Orm.missingError C.model)
  ofExcept (C.check record.val)
  let raw ← C.generateNew env id
  pure (C.notification raw)

/-- The loop of the action, which keeps the last result. -/
def generateEach (env : Env) :
    List Nat → Option Notification → Prog κ ρ υ Exn (Option Notification)
  | [], result => pure result
  | id :: ids, _ => do
    let result ← C.generateAction env id
    generateEach env ids (some result)

/-- What Python raises when the loop ran over no record. -/
def unboundLocalError : Exn := .python "UnboundLocalError"

/-- `action_generate_key`, `action_generate_client_secret`. -/
def actionGenerate (env : Env) (ids : List Nat) : Prog κ ρ υ Exn Notification := do
  let result ← C.generateEach env.sudo ids none
  ofOption result unboundLocalError

/-! ## What a call does -/

/-- Every record exists and passes the action's check. -/
def Ready (ids : List Nat) (rows : List (Row ρ)) : Prop :=
  ∀ id ∈ ids, ∃ r, rows.find? (fun r => r.id == id) = some r ∧ C.check r.val = .ok ()

/-- The writes of a call that drew the random texts from `d` on. -/
def mintOps : Nat → List Nat → List (RowOp ρ υ)
  | _, [] => []
  | d, id :: ids => .upd id (C.vals d) :: mintOps (d + 1) ids

/-- The notification of the last record. -/
def lastNotification (d : Nat) : List Nat → Option Notification → Option Notification
  | [], result => result
  | _ :: ids, _ => lastNotification (d + 1) ids (some (C.notification (C.raw d)))

variable {C}

theorem find?_upd (rows : List (Row ρ)) (id id' : Nat) (u : υ) :
    ((RowOp.upd id u).apply rows).find? (fun r => r.id == id') =
      (rows.find? fun r => r.id == id').map
        fun r => if r.id = id then ⟨r.id, update u r.val⟩ else r := by
  rw [RowOp.apply_upd, List.find?_map]
  congr 2
  funext r
  simp only [Function.comp_apply]
  split <;> rfl

/-- Generating for one record leaves the others as ready as they were. -/
theorem ready_upd {ids : List Nat} {rows : List (Row ρ)} (id i : Nat) :
    C.Ready ids ((RowOp.upd id (C.vals i)).apply rows) ↔ C.Ready ids rows := by
  refine forall_congr' fun id' => imp_congr_right fun _ => ?_
  rw [find?_upd]
  constructor
  · rintro ⟨_, hr, hc⟩
    obtain ⟨r, hfind, rfl⟩ := Option.map_eq_some_iff.mp hr
    refine ⟨r, hfind, ?_⟩
    split at hc
    · rwa [C.check_update] at hc
    · exact hc
  · rintro ⟨r, hfind, hc⟩
    refine ⟨_, Option.map_eq_some_iff.mpr ⟨r, hfind, rfl⟩, ?_⟩
    split
    · rwa [C.check_update]
    · exact hc

theorem run_generateAction {env : Env} (hsu : env.su = true) (id : Nat) (db : Db κ ρ) :
    (C.Ready [id] db.rows ∧ (C.generateAction env id).run db =
      (.ok (C.notification (C.raw db.drawn)),
        { db with
          rows := (RowOp.upd id (C.vals db.drawn)).apply db.rows
          drawn := db.drawn + 1 })) ∨
    (¬ C.Ready [id] db.rows ∧ ∃ e, (C.generateAction env id).run db = (.error e, db)) := by
  have hready : C.Ready [id] db.rows ↔
      ∃ r, db.rows.find? (fun r => r.id == id) = some r ∧ C.check r.val = .ok () := by
    simp [Ready]
  rw [hready]
  cases hfind : db.rows.find? fun r => r.id == id with
  | none =>
    refine Or.inr ⟨by simp, Orm.missingError C.model, ?_⟩
    simp [generateAction, hfind]
  | some r =>
    cases hc : C.check r.val with
    | error e =>
      refine Or.inr ⟨by simp [hc], e, ?_⟩
      simp [generateAction, hfind, hc]
    | ok _ =>
      refine Or.inl ⟨⟨r, rfl, hc⟩, ?_⟩
      have hany : (db.rows.any fun r => r.id == id) = true :=
        List.any_eq_true.mpr
          ⟨r, List.mem_of_find?_eq_some hfind, by simpa using List.find?_some hfind⟩
      simp [generateAction, generateNew, Orm.run_write, Orm.accessResult_of_su _ hsu, hfind, hc,
        hany]

theorem ready_cons {id : Nat} {ids : List Nat} {rows : List (Row ρ)} :
    C.Ready (id :: ids) rows ↔ C.Ready [id] rows ∧ C.Ready ids rows := by
  simp [Ready]

/-- A recordset is not ready because of a record that is missing or fails the check. -/
theorem not_ready_iff {n : Nat} {ids : List Nat} {rows : List (Row ρ)} (h : Numbered n rows) :
    ¬ C.Ready ids rows ↔ ∃ id ∈ ids, ∀ r ∈ rows, r.id = id → C.check r.val ≠ .ok () := by
  simp only [Ready, not_forall, not_exists, not_and, exists_prop]
  refine exists_congr fun id => and_congr_right fun _ => ⟨fun hfind r hr hid hc => ?_,
    fun hall r hfind => ?_⟩
  · cases hf : rows.find? fun r => r.id == id with
    | none => exact absurd (by simp [hid]) (List.find?_eq_none.mp hf r hr)
    | some r' =>
      have hid' : r'.id = id := by simpa using List.find?_some hf
      obtain rfl := h.eq_of_id (List.mem_of_find?_eq_some hf) hr (hid'.trans hid.symm)
      exact hfind r' hf hc
  · exact hall r (List.mem_of_find?_eq_some hfind) (by simpa using List.find?_some hfind)

/-- The loop goes through when every record is ready, and else raises. -/
theorem run_generateEach {env : Env} (hsu : env.su = true) (ids : List Nat)
    (result : Option Notification) (db : Db κ ρ) :
    (C.Ready ids db.rows ∧ (C.generateEach env ids result).run db =
      (.ok (C.lastNotification db.drawn ids result),
        { db with
          rows := applyOps (C.mintOps db.drawn ids) db.rows
          drawn := db.drawn + ids.length })) ∨
    (¬ C.Ready ids db.rows ∧
      ∃ e db', (C.generateEach env ids result).run db = (.error e, db')) := by
  induction ids generalizing result db with
  | nil => exact Or.inl ⟨fun _ h => (by cases h), rfl⟩
  | cons id ids ih =>
    rw [ready_cons]
    unfold generateEach
    rw [Prog.run_bind]
    rcases run_generateAction (C := C) hsu id db with ⟨hid, hrun⟩ | ⟨hid, e, hrun⟩
    · rw [hrun]
      dsimp only
      rcases ih (some (C.notification (C.raw db.drawn)))
        { db with
          rows := (RowOp.upd id (C.vals db.drawn)).apply db.rows
          drawn := db.drawn + 1 } with ⟨hids, hrest⟩ | ⟨hids, e, db', hrest⟩
      · refine Or.inl ⟨⟨hid, (ready_upd (C := C) id _).mp hids⟩, ?_⟩
        rw [hrest]
        simp only [lastNotification, mintOps, applyOps_cons, List.length_cons]
        congr 2
        omega
      · exact Or.inr ⟨fun h => hids ((ready_upd (C := C) id _).mpr h.2), e, db', hrest⟩
    · refine Or.inr ⟨fun h => hid h.1, e, db, ?_⟩
      rw [hrun]

theorem lastNotification_cons (id : Nat) (ids : List Nat) (d : Nat)
    (result : Option Notification) :
    ∃ i, d ≤ i ∧
      C.lastNotification d (id :: ids) result = some (C.notification (C.raw i)) := by
  induction ids generalizing id d result with
  | nil => exact ⟨d, Nat.le_refl d, rfl⟩
  | cons id' ids ih =>
    obtain ⟨i, hi, h⟩ := ih id' (d + 1) (some (C.notification (C.raw d)))
    exact ⟨i, Nat.le_of_succ_le hi, h⟩

theorem mem_mintOps {d : Nat} {ids : List Nat} {op : RowOp ρ υ} (h : op ∈ C.mintOps d ids) :
    op.isIns = false ∧ op.target ∈ ids := by
  induction ids generalizing d with
  | nil => cases h
  | cons id ids ih =>
    rcases List.mem_cons.mp h with rfl | h
    · exact ⟨rfl, List.mem_cons_self⟩
    · exact (ih h).imp_right (List.mem_cons_of_mem _)

/-- What becomes of a row: it keeps the hash of a text the call drew if it is one of the records. -/
theorem exists_mem_mintOps_lt {rows : List (Row ρ)} {r : Row ρ} (hr : r ∈ rows) (d : Nat)
    (ids : List Nat) :
    ∃ r' ∈ applyOps (C.mintOps d ids) rows, r'.id = r.id ∧ (r.id ∉ ids → r' = r) ∧
      (r.id ∈ ids → ∃ i, d ≤ i ∧ i < d + ids.length ∧
        C.hash r'.val = some (P.crypt.hash i (C.raw i))) := by
  induction ids generalizing rows r d with
  | nil => exact ⟨r, hr, rfl, fun _ => rfl, fun h => (by cases h)⟩
  | cons id ids ih =>
    have hmem : (if r.id = id then ⟨r.id, update (C.vals d) r.val⟩ else r) ∈
        (RowOp.upd id (C.vals d)).apply rows := List.mem_map.mpr ⟨r, hr, rfl⟩
    have hlength : (id :: ids).length = ids.length + 1 := rfl
    obtain ⟨r', hr', hid, hsame, hfresh⟩ := ih hmem (d + 1)
    refine ⟨r', hr', ?_⟩
    by_cases he : r.id = id
    · rw [if_pos he] at hid hsame hfresh
      refine ⟨hid, fun hnot => absurd he (List.ne_of_not_mem_cons hnot), fun _ => ?_⟩
      by_cases hin : r.id ∈ ids
      · obtain ⟨i, hi, hlt, hh⟩ := hfresh hin
        exact ⟨i, by omega, by omega, hh⟩
      · rw [hsame hin]
        exact ⟨d, Nat.le_refl d, by omega, C.hash_update d r.val⟩
    · rw [if_neg he] at hid hsame hfresh
      refine ⟨hid, fun hnot => hsame (List.not_mem_of_not_mem_cons hnot), fun hin => ?_⟩
      obtain ⟨i, hi, hlt, hh⟩ := hfresh ((List.mem_cons.mp hin).resolve_left he)
      exact ⟨i, by omega, by omega, hh⟩

/-- What becomes of a row: it keeps a fresh hash if it is one of the records. -/
theorem exists_mem_mintOps {rows : List (Row ρ)} {r : Row ρ} (hr : r ∈ rows) (d : Nat)
    (ids : List Nat) :
    ∃ r' ∈ applyOps (C.mintOps d ids) rows, r'.id = r.id ∧ (r.id ∉ ids → r' = r) ∧
      (r.id ∈ ids → ∃ i, d ≤ i ∧ C.hash r'.val = some (P.crypt.hash i (C.raw i))) := by
  obtain ⟨r', hr', hid, hsame, hfresh⟩ := exists_mem_mintOps_lt (C := C) hr d ids
  refine ⟨r', hr', hid, hsame, fun hin => ?_⟩
  obtain ⟨i, hi, -, hh⟩ := hfresh hin
  exact ⟨i, hi, hh⟩

/-- A call either goes through and generates for every record, or raises and changes nothing;
the caller's rights do not matter. -/
theorem transact_actionGenerate (env : Env) (ids : List Nat) (db : Db κ ρ) :
    (ids ≠ [] ∧ C.Ready ids db.rows ∧
      ((C.actionGenerate env ids).transact db).1.rows =
        applyOps (C.mintOps db.drawn ids) db.rows ∧
      ∃ i, db.drawn ≤ i ∧
        ((C.actionGenerate env ids).transact db).2 = .ok (C.notification (C.raw i))) ∨
    ((ids = [] ∨ ¬ C.Ready ids db.rows) ∧
      ((C.actionGenerate env ids).transact db).1.rows = db.rows ∧
      ∃ e, ((C.actionGenerate env ids).transact db).2 = .error e) := by
  unfold Prog.transact actionGenerate
  rw [Prog.run_bind]
  have hsu : env.sudo.su = true := rfl
  rcases run_generateEach (C := C) hsu ids none db with
    ⟨hready, hrun⟩ | ⟨hready, e, db', hrun⟩
  · rw [hrun]
    dsimp only
    cases ids with
    | nil => exact Or.inr ⟨Or.inl rfl, rfl, unboundLocalError, rfl⟩
    | cons id ids =>
      obtain ⟨i, hi, hlast⟩ := lastNotification_cons (C := C) id ids db.drawn none
      rw [hlast]
      exact Or.inl ⟨List.cons_ne_nil id ids, hready, rfl, i, hi, rfl⟩
  · rw [hrun]
    exact Or.inr ⟨Or.inr hready, rfl, e, rfl⟩

/-! ## Who may mint what -/

/-- A table with unique ids, whose stored hashes match no random text still to be drawn. -/
structure WellFormed (C : Credential P ρ υ) (db : Db κ ρ) : Prop where
  numbered : Numbered db.nextId db.rows
  fresh : ∀ r ∈ db.rows, ∀ h, C.hash r.val = some h → ∀ i, db.drawn ≤ i →
    P.crypt.verify (C.raw i) h ≠ some true

/-- A call of user `u` replaces a record's hash, or returns a raw value that authenticates for
the record, only if `u` passes the model's write access and write rules on it. -/
def MintsOnlyPermitted (C : Credential P ρ υ) (authenticates : Db κ ρ → String → Row ρ → Prop)
    (db : Db κ ρ) (u : User) (ids : List Nat) : Prop :=
  let result := (C.actionGenerate ⟨u, false⟩ ids).transact db
  ∀ r ∈ db.rows, ∀ r' ∈ result.1.rows, r'.id = r.id →
    (C.hash r'.val ≠ C.hash r.val ∨
      ∃ raw, result.2 = .ok (C.notification raw) ∧ authenticates result.1 raw r') →
    C.model.security.permits u .write r.val = true

theorem notification_inj {raw raw' : String} (h : C.notification raw = C.notification raw') :
    raw = raw' := by
  have h := congrArg (fun n => n.message.toList) h
  simp only [notification, String.toList_append, List.append_cancel_left_eq] at h
  exact String.toList_inj.mp h

/-- The exact condition: the call raises, or the caller may write every record of it. -/
theorem mintsOnlyPermitted_iff (hP : P.Exact) {db : Db κ ρ} (hdb : WellFormed C db)
    {authenticates : Db κ ρ → String → Row ρ → Prop}
    (hauth : ∀ db raw r, authenticates db raw r →
      ∃ h, C.hash r.val = some h ∧ P.crypt.verify raw h = some true)
    (u : User) (ids : List Nat) :
    C.MintsOnlyPermitted authenticates db u ids ↔
      ids = [] ∨ ¬ C.Ready ids db.rows ∨
        ∀ r ∈ db.rows, r.id ∈ ids → C.model.security.permits u .write r.val = true := by
  rcases transact_actionGenerate (C := C) ⟨u, false⟩ ids db with
    ⟨hne, hready, hrows, i, hi, hok⟩ | ⟨hraise, hrows, e, herr⟩
  · constructor
    · intro h
      refine Or.inr (Or.inr fun r hr hid => ?_)
      obtain ⟨r', hr', he, -, hfresh⟩ := exists_mem_mintOps (C := C) hr db.drawn ids
      obtain ⟨j, hj, hhash⟩ := hfresh hid
      refine h r hr r' (hrows ▸ hr') he (Or.inl fun hsame => ?_)
      -- a hash that was there before would have matched a text not drawn yet
      refine hdb.fresh r hr _ (hsame ▸ hhash) j hj ?_
      rw [hP.crypt.verify_hash]
      simp
    · rintro (hnil | hnot | hall)
      · exact absurd hnil hne
      · exact absurd hready hnot
      · intro r hr r' hr' he hminted
        by_cases hid : r.id ∈ ids
        · exact hall r hr hid
        · -- a record outside the recordset is as before and matches no fresh text
          have hsame : r' = r := by
            rw [hrows] at hr'
            obtain ⟨r'', hr'', he', hkeep, -⟩ := exists_mem_mintOps (C := C) hr db.drawn ids
            have hnum : Numbered db.nextId (applyOps (C.mintOps db.drawn ids) db.rows) :=
              applyOps_induction (fun op hop _ h => h.change op (mem_mintOps hop).1) hdb.numbered
            rw [← hkeep hid]
            exact hnum.eq_of_id hr' hr'' (he.trans he'.symm)
          subst hsame
          rcases hminted with hchanged | ⟨raw, hraw, ha⟩
          · exact absurd rfl hchanged
          · obtain ⟨hash, hhash, hv⟩ := hauth _ _ _ ha
            rw [hok] at hraw
            obtain rfl := notification_inj (Except.ok.inj hraw)
            exact absurd hv (hdb.fresh r' hr hash hhash i hi)
  · refine ⟨fun _ => hraise.imp_right Or.inl, fun _ r hr r' hr' he hminted => ?_⟩
    rw [hrows] at hr'
    obtain rfl := hdb.numbered.eq_of_id hr' hr he
    rcases hminted with hchanged | ⟨raw, hraw, -⟩
    · exact absurd rfl hchanged
    · rw [herr] at hraw
      cases hraw

end Credential

end SsiRest
