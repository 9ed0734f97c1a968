import Mathlib.Data.List.Forall2

/-!
# What a reading computation may depend on

A computation that reads a state and may fail is safe for an observer when states that
the observer cannot tell apart give the same outcome and some failures never occur.

    a safe computation followed by safe ones is safe               (Safe.bind)
    a loop over safe computations is safe                          (safe_mapM)

On one state, a computation may avoid some failures:

    a loop over computations that avoid them avoids them           (avoids_mapM)
-/

namespace Observe

variable {σ ε α β : Type}

/-- States that `agrees` relates have the same outcome, and no failure is `bad`. -/
structure Safe (agrees : σ → σ → Prop) (bad : ε → Prop) (x : ReaderT σ (Except ε) α) : Prop where
  same : ∀ s s', agrees s s' → x.run s = x.run s'
  never : ∀ s e, x.run s = .error e → ¬ bad e

variable {agrees : σ → σ → Prop} {bad : ε → Prop}

theorem run_bind_eq (x : ReaderT σ (Except ε) α) (f : α → ReaderT σ (Except ε) β) (s : σ) :
    (x >>= f).run s = match x.run s with
      | .error e => .error e
      | .ok a => (f a).run s := by
  rw [ReaderT.run_bind]
  cases x.run s <;> rfl

theorem run_bind_ok {x : ReaderT σ (Except ε) α} {f : α → ReaderT σ (Except ε) β} {s : σ} {b : β}
    (h : (x >>= f).run s = .ok b) : ∃ a, x.run s = .ok a ∧ (f a).run s = .ok b := by
  rw [run_bind_eq] at h
  cases hx : x.run s with
  | error e =>
    rw [hx] at h
    cases h
  | ok a =>
    rw [hx] at h
    exact ⟨a, rfl, h⟩

theorem safe_pure (a : α) : Safe agrees bad (pure a : ReaderT σ (Except ε) α) where
  same _ _ _ := rfl
  never _ _ h := by cases h

theorem safe_throw {e : ε} (h : ¬ bad e) :
    Safe agrees bad (throw e : ReaderT σ (Except ε) α) where
  same _ _ _ := rfl
  never s e' he := by
    cases he
    exact h

/-- What reads no state is safe when its failure is. -/
theorem safe_lift {x : Except ε α} (h : ∀ e, x = .error e → ¬ bad e) :
    Safe agrees bad (liftM x : ReaderT σ (Except ε) α) where
  same _ _ _ := rfl
  never _ e he := h e he

theorem Safe.bind {x : ReaderT σ (Except ε) α} {f : α → ReaderT σ (Except ε) β}
    (hx : Safe agrees bad x) (hf : ∀ a, Safe agrees bad (f a)) : Safe agrees bad (x >>= f) where
  same := by
    intro s s' hs
    rw [run_bind_eq, run_bind_eq, hx.same s s' hs]
    cases x.run s' with
    | error e => rfl
    | ok a => exact (hf a).same s s' hs
  never := by
    intro s e he
    rw [run_bind_eq] at he
    cases hrun : x.run s with
    | error e' =>
      rw [hrun] at he
      cases he
      exact hx.never s e hrun
    | ok a =>
      rw [hrun] at he
      exact (hf a).never s e he

theorem safe_mapM {f : α → ReaderT σ (Except ε) β} (hf : ∀ a, Safe agrees bad (f a))
    (l : List α) : Safe agrees bad (l.mapM f) := by
  induction l with
  | nil => exact safe_pure []
  | cons a l ih =>
    rw [List.mapM_cons]
    exact (hf a).bind fun b => ih.bind fun bs => safe_pure (b :: bs)

theorem run_mapM_singleton (f : α → ReaderT σ (Except ε) β) (a : α) (s : σ) :
    ([a].mapM f).run s = match (f a).run s with
      | .error e => .error e
      | .ok b => .ok [b] := by
  rw [List.mapM_cons, run_bind_eq]
  cases (f a).run s <;> rfl

/-- The results of a loop, item by item. -/
theorem forall₂_of_mapM {f : α → ReaderT σ (Except ε) β} {s : σ} {l : List α} {bs : List β}
    (h : (l.mapM f).run s = .ok bs) : List.Forall₂ (fun a b => (f a).run s = .ok b) l bs := by
  induction l generalizing bs with
  | nil =>
    cases h
    exact .nil
  | cons a l ih =>
    rw [List.mapM_cons] at h
    obtain ⟨b, hb, h⟩ := run_bind_ok h
    obtain ⟨bs', hbs', h⟩ := run_bind_ok h
    cases h
    exact .cons hb (ih hbs')

/-- What the results satisfy, in terms of the items. -/
theorem forall_mem_iff_of_forall₂ {R : α → β → Prop} {P : β → Prop} {Q : α → Prop}
    (hiff : ∀ a b, R a b → (P b ↔ Q a)) {l : List α} {bs : List β} (h : List.Forall₂ R l bs) :
    (∀ b ∈ bs, P b) ↔ ∀ a ∈ l, Q a := by
  induction h with
  | nil => exact iff_of_true (fun _ hb => nomatch hb) (fun _ ha => nomatch ha)
  | cons hab _ ih => rw [List.forall_mem_cons, List.forall_mem_cons, hiff _ _ hab, ih]

/-- The results of a loop, one for each item. -/
theorem forall_of_mapM {f : α → ReaderT σ (Except ε) β} {P : β → Prop} {s : σ}
    (hf : ∀ a b, (f a).run s = .ok b → P b) {l : List α} {bs : List β}
    (h : (l.mapM f).run s = .ok bs) : bs.length = l.length ∧ ∀ b ∈ bs, P b := by
  induction l generalizing bs with
  | nil =>
    cases h
    exact ⟨rfl, fun b hb => nomatch hb⟩
  | cons a l ih =>
    rw [List.mapM_cons] at h
    obtain ⟨b, hb, h⟩ := run_bind_ok h
    obtain ⟨bs', hbs', h⟩ := run_bind_ok h
    cases h
    obtain ⟨hlength, hall⟩ := ih hbs'
    exact ⟨congrArg Nat.succ hlength, List.forall_mem_cons.mpr ⟨hf a b hb, hall⟩⟩

/-! ## One state -/

/-- No failure on this state is `bad`. -/
def Avoids (s : σ) (bad : ε → Prop) (x : ReaderT σ (Except ε) α) : Prop :=
  ∀ e, x.run s = .error e → ¬ bad e

variable {s : σ}

theorem avoids_pure (a : α) : Avoids s bad (pure a : ReaderT σ (Except ε) α) := by
  intro e h
  cases h

theorem avoids_throw {e : ε} (h : ¬ bad e) : Avoids s bad (throw e : ReaderT σ (Except ε) α) := by
  intro e' he
  cases he
  exact h

theorem Avoids.bind {x : ReaderT σ (Except ε) α} {f : α → ReaderT σ (Except ε) β}
    (hx : Avoids s bad x) (hf : ∀ a, x.run s = .ok a → Avoids s bad (f a)) :
    Avoids s bad (x >>= f) := by
  intro e he
  rw [run_bind_eq] at he
  cases hrun : x.run s with
  | error e' =>
    rw [hrun] at he
    cases he
    exact hx e hrun
  | ok a =>
    rw [hrun] at he
    exact hf a hrun e he

theorem avoids_mapM {f : α → ReaderT σ (Except ε) β} (hf : ∀ a, Avoids s bad (f a))
    (l : List α) : Avoids s bad (l.mapM f) := by
  induction l with
  | nil => exact avoids_pure []
  | cons a l ih =>
    rw [List.mapM_cons]
    exact (hf a).bind fun b _ => ih.bind fun bs _ => avoids_pure (b :: bs)

end Observe
