import SsiRestApi.Lib.Tx

/-!
# Programs that cannot tell two databases apart

Two databases are twins when they differ in their rows only, and those are related by `T`.  Two
programs are alike on them when they answer the same and leave twins.

    a program that reads rows is alike when it goes on alike with the rows of both
                                                                        (Alike.getRows_bind)
    requests that are alike leave twins, committed or rolled back          (Alike.transact)
-/

namespace Tx

variable {κ ρ υ ε α β : Type}

/-- The databases differ in their rows only, and those are related. -/
structure Twin (T : List (Row ρ) → List (Row ρ) → Prop) (db db' : Db κ ρ) : Prop where
  ctx : db.ctx = db'.ctx
  rows : T db.rows db'.rows
  now : db.now = db'.now
  drawn : db.drawn = db'.drawn
  nextId : db.nextId = db'.nextId

theorem Twin.withRows {T : List (Row ρ) → List (Row ρ) → Prop} {db db' : Db κ ρ}
    (h : Twin T db db') {rows rows' : List (Row ρ)} (hrows : T rows rows') :
    Twin T { db with rows := rows } { db' with rows := rows' } :=
  { h with rows := hrows }

variable [Update υ ρ]

/-- Every row operation keeps the relation. -/
def Kept (υ : Type) [Update υ ρ] (T : List (Row ρ) → List (Row ρ) → Prop) : Prop :=
  ∀ (op : RowOp ρ υ) rows rows', T rows rows' → T (op.apply rows) (op.apply rows')

theorem Kept.applyOps {T : List (Row ρ) → List (Row ρ) → Prop} (hT : Kept υ T)
    (log : List (RowOp ρ υ)) {rows rows' : List (Row ρ)} (h : T rows rows') :
    T (Tx.applyOps log rows) (Tx.applyOps log rows') := by
  induction log generalizing rows rows' with
  | nil => exact h
  | cons op log ih => exact ih (hT op rows rows' h)

/-- The runs answer the same and leave twins. -/
def Alike (T : List (Row ρ) → List (Row ρ) → Prop) (p p' : Prog κ ρ υ ε α) (db db' : Db κ ρ) :
    Prop :=
  (p.run db).1 = (p'.run db').1 ∧ Twin T (p.run db).2 (p'.run db').2

namespace Alike

variable {T : List (Row ρ) → List (Row ρ) → Prop} {p p' : Prog κ ρ υ ε α} {db db' : Db κ ρ}

theorem pure (h : Twin T db db') (a : α) :
    Alike T (Pure.pure a : Prog κ ρ υ ε α) (Pure.pure a) db db' := ⟨rfl, h⟩

theorem bind {q q' : Prog κ ρ υ ε β} {f f' : β → Prog κ ρ υ ε α} (hq : Alike T q q' db db')
    (hf : ∀ b db db', Twin T db db' → Alike T (f b) (f' b) db db') :
    Alike T (q >>= f) (q' >>= f') db db' := by
  obtain ⟨hans, htwin⟩ := hq
  unfold Alike
  rw [Prog.run_bind, Prog.run_bind]
  rcases hrun : q.run db with ⟨r, db₁⟩
  rcases hrun' : q'.run db' with ⟨r', db₁'⟩
  rw [hrun, hrun'] at hans htwin
  obtain rfl : r = r' := hans
  cases r with
  | ok b => exact hf b db₁ db₁' htwin
  | error e => exact ⟨rfl, htwin⟩

/-- A step that leaves the databases alone and gives both the same. -/
theorem step_bind {q q' : Prog κ ρ υ ε β} {r : Except ε β} {f f' : β → Prog κ ρ υ ε α}
    (h : Twin T db db') (hq : q.run db = (r, db)) (hq' : q'.run db' = (r, db'))
    (hf : ∀ b, r = .ok b → Alike T (f b) (f' b) db db') :
    Alike T (q >>= f) (q' >>= f') db db' := by
  unfold Alike
  rw [Prog.run_bind, Prog.run_bind, hq, hq']
  cases r with
  | ok b => exact hf b rfl
  | error e => exact ⟨rfl, h⟩

theorem require_bind {c : Bool} {e : ε} {f f' : Unit → Prog κ ρ υ ε α} (h : Twin T db db')
    (hf : c = true → Alike T (f ()) (f' ()) db db') :
    Alike T (require c e >>= f) (require c e >>= f') db db' := by
  cases c with
  | false => exact ⟨rfl, h⟩
  | true => exact hf rfl

theorem ofOption_bind {o : Option β} {e : ε} {f f' : β → Prog κ ρ υ ε α} (h : Twin T db db')
    (hf : ∀ b, Alike T (f b) (f' b) db db') :
    Alike T (ofOption o e >>= f) (ofOption o e >>= f') db db' := by
  cases o with
  | none => exact ⟨rfl, h⟩
  | some b => exact hf b

theorem ofExcept_bind {r : Except ε β} {f f' : β → Prog κ ρ υ ε α} (h : Twin T db db')
    (hf : ∀ b, Alike T (f b) (f' b) db db') :
    Alike T (ofExcept r >>= f) (ofExcept r >>= f') db db' :=
  step_bind h (Prog.run_ofExcept db r) (Prog.run_ofExcept db' r) fun b _ => hf b

theorem getContext_bind {f f' : κ → Prog κ ρ υ ε α} (h : Twin T db db')
    (hf : ∀ c, Alike T (f c) (f' c) db db') :
    Alike T (getContext >>= f) (getContext >>= f') db db' :=
  step_bind h (Prog.run_getContext db) (h.ctx ▸ Prog.run_getContext db') fun c _ => hf c

theorem getNow_bind {f f' : Int → Prog κ ρ υ ε α} (h : Twin T db db')
    (hf : ∀ now, now = db.now → Alike T (f now) (f' now) db db') :
    Alike T (getNow >>= f) (getNow >>= f') db db' :=
  step_bind h (Prog.run_getNow db) (h.now ▸ Prog.run_getNow db') fun now hnow =>
    hf now (Except.ok.inj hnow).symm

/-- What follows goes on alike with the rows of both. -/
theorem getRows_bind {f f' : List (Row ρ) → Prog κ ρ υ ε α}
    (hf : Alike T (f db.rows) (f' db'.rows) db db') :
    Alike T (getRows >>= f) (getRows >>= f') db db' := by
  unfold Alike
  rw [Prog.run_bind, Prog.run_bind]
  exact hf

theorem getDraw (h : Twin T db db') : Alike T (getDraw : Prog κ ρ υ ε Nat) getDraw db db' :=
  ⟨congrArg Except.ok h.drawn, { h with drawn := congrArg Nat.succ h.drawn }⟩

theorem createRow (hT : Kept υ T) (h : Twin T db db') (val : ρ) :
    Alike T (createRow val : Prog κ ρ υ ε Nat) (createRow val) db db' := by
  refine ⟨congrArg Except.ok h.nextId, { h with rows := ?_, nextId := congrArg Nat.succ h.nextId }⟩
  rw [Prog.run_createRow, Prog.run_createRow]
  dsimp only
  rw [h.nextId]
  exact hT (.ins db'.nextId val) _ _ h.rows

theorem writeRow (hT : Kept υ T) (h : Twin T db db') (id : Nat) (u : υ) :
    Alike T (writeRow id u : Prog κ ρ υ ε Unit) (writeRow id u) db db' :=
  ⟨rfl, h.withRows (hT (.upd id u) _ _ h.rows)⟩

/-- Requests that are alike answer the same and leave twins. -/
theorem transact (h : Alike T p p' db db') (htwin : Twin T db db') :
    (p.transact db).2 = (p'.transact db').2 ∧ Twin T (p.transact db).1 (p'.transact db').1 := by
  obtain ⟨hans, hleft⟩ := h
  unfold Prog.transact
  rcases hrun : p.run db with ⟨r, db₁⟩
  rcases hrun' : p'.run db' with ⟨r', db₁'⟩
  rw [hrun, hrun'] at hans hleft
  obtain rfl : r = r' := hans
  cases r with
  | ok a => exact ⟨rfl, hleft⟩
  | error e => exact ⟨rfl, hleft.withRows htwin.rows⟩

end Alike

end Tx
