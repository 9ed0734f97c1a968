import SsiRestApi.Lib.Tx

/-!
# What a program may raise

`p.RaisesOnly E db`: run on `db`, the program returns or raises an exception in `E`.
The rules follow the program: a sequence raises what its first part raises and, where
that returns, what the rest raises.
-/

namespace Tx

namespace Prog

variable {κ ρ υ ε α β : Type} [Update υ ρ]

/-- Every exception the program ends in is one of `E`. -/
def RaisesOnly (E : ε → Prop) (p : Prog κ ρ υ ε α) (db : Db κ ρ) : Prop :=
  ∀ e, (p.run db).1 = .error e → E e

variable {E : ε → Prop} {db : Db κ ρ}

theorem raisesOnly_pure (a : α) : (Pure.pure a : Prog κ ρ υ ε α).RaisesOnly E db := by
  intro e he
  cases he

theorem raisesOnly_bind {p : Prog κ ρ υ ε β} {f : β → Prog κ ρ υ ε α} :
    (p >>= f).RaisesOnly E db ↔
      p.RaisesOnly E db ∧ ∀ b db', p.run db = (.ok b, db') → (f b).RaisesOnly E db' := by
  unfold RaisesOnly
  rw [run_bind]
  rcases p.run db with ⟨r, db₁⟩
  cases r with
  | ok b => simp
  | error e => simp

/-- A first part that returns raises nothing. -/
theorem raisesOnly_bind_of_run {p : Prog κ ρ υ ε β} {f : β → Prog κ ρ υ ε α} {b : β}
    {db' : Db κ ρ} (h : p.run db = (.ok b, db')) :
    (p >>= f).RaisesOnly E db ↔ (f b).RaisesOnly E db' := by
  unfold RaisesOnly
  rw [run_bind, h]

theorem raisesOnly_require {c : Bool} {e : ε} (he : E e) :
    (require c e : Prog κ ρ υ ε Unit).RaisesOnly E db := by
  cases c with
  | true => exact raisesOnly_pure ()
  | false => simpa [RaisesOnly] using he

theorem raisesOnly_require_bind {c : Bool} {e : ε} {f : Unit → Prog κ ρ υ ε α} (he : E e) :
    (require c e >>= f).RaisesOnly E db ↔ (c = true → (f ()).RaisesOnly E db) := by
  cases c with
  | true => rw [raisesOnly_bind_of_run (run_require_ok.mpr ⟨rfl, rfl⟩), imp_iff_right rfl]
  | false => simpa [raisesOnly_bind, RaisesOnly] using he

theorem raisesOnly_ofOption_bind {o : Option β} {e : ε} {f : β → Prog κ ρ υ ε α} (he : E e) :
    (ofOption o e >>= f).RaisesOnly E db ↔ ∀ b, o = some b → (f b).RaisesOnly E db := by
  cases o with
  | some b => simp [raisesOnly_bind_of_run (run_ofOption_ok.mpr ⟨rfl, rfl⟩)]
  | none => simpa [raisesOnly_bind, RaisesOnly] using he

/-- A result none of whose exceptions is in `E` has to be a value. -/
theorem raisesOnly_ofExcept_bind {r : Except ε β} {f : β → Prog κ ρ υ ε α}
    (hr : ∀ e, r = .error e → ¬ E e) :
    (ofExcept r >>= f).RaisesOnly E db ↔ ∃ b, r = .ok b ∧ (f b).RaisesOnly E db := by
  cases r with
  | ok b => simp [raisesOnly_bind_of_run (run_ofExcept_ok.mpr ⟨rfl, rfl⟩)]
  | error e => simpa [raisesOnly_bind, RaisesOnly] using hr e rfl

end Prog

end Tx
