import Mathlib.Data.List.Induction

/-!
# Machines and their runs

A machine takes one action after another and answers each.  `exec` is the state
after a run, `Every` says that each action of a run meets a condition in the
state it is taken in, and `Past` that some action of the run did.  Properties of
runs come from properties of one step:

* `invariant`, `invariant_of_every`: what every step keeps holds of every state.
* `run_induction`: the same for a property that also looks at the run so far.
* `once`: what one action establishes and every later one keeps.
* `past_concat`: how the past of a run grows by its last action.
* `since_iff`: what begins and ends with known actions holds if it began and has not ended since.
* `Refines`: a machine whose steps are steps of another one, or leave the state as it is.
* `Narrows`: a machine that only refuses some of the actions of another one.
* `observed_filter_iff`: when a run is answered as it would be without its hidden actions.
-/

/-- A deterministic step function with an answer. -/
structure Machine (σ α ω : Type) where
  step : σ → α → σ × ω

namespace Machine

variable {σ α ω : Type} (M : Machine σ α ω)

/-- The state one action leads to. -/
def next (s : σ) (a : α) : σ := (M.step s a).1

/-- What one action is answered. -/
def answer (s : σ) (a : α) : ω := (M.step s a).2

def exec (s : σ) (as : List α) : σ := as.foldl M.next s

/-- Every action of the run meets `C` in the state it is taken in. -/
def Every (C : σ → α → Prop) (s : σ) : List α → Prop
  | [] => True
  | a :: as => C s a ∧ Every C (M.next s a) as

/-- Some action of the run met `P` in the state it was taken in. -/
def Past (P : σ → α → Prop) (s : σ) (as : List α) : Prop :=
  ∃ before a after, as = before ++ a :: after ∧ P (M.exec s before) a

/-- Some action of the run met `E`, and none after it met `X`. -/
def Since (E X : σ → α → Prop) (s : σ) (as : List α) : Prop :=
  ∃ before a after, as = before ++ a :: after ∧ E (M.exec s before) a ∧
    M.Every (fun s a => ¬ X s a) (M.next (M.exec s before) a) after

@[simp] theorem exec_nil (s : σ) : M.exec s [] = s := rfl

@[simp] theorem exec_cons (s : σ) (a : α) (as : List α) :
    M.exec s (a :: as) = M.exec (M.next s a) as := rfl

@[simp] theorem exec_append (s : σ) (as bs : List α) :
    M.exec s (as ++ bs) = M.exec (M.exec s as) bs := by
  simp [exec, List.foldl_append]

theorem exec_concat (s : σ) (as : List α) (a : α) :
    M.exec s (as ++ [a]) = M.next (M.exec s as) a := by simp

/-! ## Invariants -/

theorem invariant {I : σ → Prop} (hstep : ∀ s a, I s → I (M.next s a)) {s : σ} (h0 : I s)
    (as : List α) : I (M.exec s as) := by
  induction as generalizing s with
  | nil => exact h0
  | cons a as ih => exact ih (hstep s a h0)

/-- An invariant that only the steps meeting `C` keep holds in every run of such steps. -/
theorem invariant_of_every {I : σ → Prop} {C : σ → α → Prop}
    (hstep : ∀ s a, I s → C s a → I (M.next s a)) {s : σ} (h0 : I s) (as : List α)
    (hc : M.Every C s as) : I (M.exec s as) := by
  induction as generalizing s with
  | nil => exact h0
  | cons a as ih => exact ih (hstep s a h0 hc.1) hc.2

/-- A condition on the actions alone. -/
theorem every_of_forall {C : α → Prop} {as : List α} (h : ∀ a ∈ as, C a) {s : σ} :
    M.Every (fun _ a => C a) s as := by
  induction as generalizing s with
  | nil => trivial
  | cons a as ih => exact ⟨h a List.mem_cons_self, ih fun b hb => h b (List.mem_cons_of_mem _ hb)⟩

theorem every_append {C : σ → α → Prop} {s : σ} {as bs : List α} :
    M.Every C s (as ++ bs) ↔ M.Every C s as ∧ M.Every C (M.exec s as) bs := by
  induction as generalizing s with
  | nil => simp [Every]
  | cons a as ih => simp [Every, ih, and_assoc]

/-- Induction on the last action, with the run so far at hand. -/
theorem run_induction {J : List α → σ → Prop} {s : σ} (h0 : J [] s)
    (hstep : ∀ as a, J as (M.exec s as) → J (as ++ [a]) (M.next (M.exec s as) a)) (as : List α) :
    J as (M.exec s as) := by
  induction as using List.reverseRecOn with
  | nil => exact h0
  | append_singleton as a ih =>
    rw [exec_concat]
    exact hstep as a ih

/-- What one action establishes and every later action keeps holds from then on. -/
theorem once {Q : σ → Prop} (hkeep : ∀ s a, Q s → Q (M.next s a)) {s : σ} {before after : List α}
    {a : α} (hest : Q (M.next (M.exec s before) a)) : Q (M.exec s (before ++ a :: after)) := by
  rw [exec_append, exec_cons]
  exact M.invariant hkeep hest after

/-! ## The past of a run -/

/-- The past of a longer run is the past of the shorter one and the last action. -/
theorem past_concat {P : σ → α → Prop} {s : σ} {as : List α} {a : α} :
    M.Past P s (as ++ [a]) ↔ M.Past P s as ∨ P (M.exec s as) a := by
  constructor
  · rintro ⟨before, b, after, he, hp⟩
    rcases List.eq_nil_or_concat after with rfl | ⟨after', c, rfl⟩
    · obtain ⟨rfl, hb⟩ := List.append_inj' he rfl
      cases hb
      exact Or.inr hp
    · rw [List.concat_eq_append, ← List.cons_append, ← List.append_assoc] at he
      obtain ⟨rfl, -⟩ := List.append_inj' he rfl
      exact Or.inl ⟨before, b, after', rfl, hp⟩
  · rintro (⟨before, b, after, rfl, hp⟩ | hp)
    · exact ⟨before, b, after ++ [a], by simp, hp⟩
    · exact ⟨as, a, [], rfl, hp⟩

/-- The last action begins anew, or does not end what began before it. -/
theorem since_concat {E X : σ → α → Prop} {s : σ} {as : List α} {a : α} :
    M.Since E X s (as ++ [a]) ↔
      E (M.exec s as) a ∨ M.Since E X s as ∧ ¬ X (M.exec s as) a := by
  constructor
  · rintro ⟨before, b, after, he, hE, hX⟩
    rcases List.eq_nil_or_concat after with rfl | ⟨after', c, rfl⟩
    · obtain ⟨rfl, hb⟩ := List.append_inj' he rfl
      cases hb
      exact Or.inl hE
    · rw [List.concat_eq_append] at he hX
      rw [← List.cons_append, ← List.append_assoc] at he
      obtain ⟨rfl, hc⟩ := List.append_inj' he rfl
      cases hc
      obtain ⟨hX, hlast, -⟩ := (M.every_append).mp hX
      rw [exec_append, exec_cons]
      exact Or.inr ⟨⟨before, b, after', rfl, hE, hX⟩, hlast⟩
  · rintro (hE | ⟨⟨before, b, after, rfl, hE, hX⟩, hlast⟩)
    · exact ⟨as, a, [], rfl, hE, trivial⟩
    · rw [exec_append, exec_cons] at hlast
      exact ⟨before, b, after ++ [a], by simp, hE, (M.every_append).mpr ⟨hX, hlast, trivial⟩⟩

theorem Since.mono {E E' X : σ → α → Prop} {s : σ} {as : List α} (h : M.Since E X s as)
    (hE : ∀ s a, E s a → E' s a) : M.Since E' X s as := by
  obtain ⟨before, a, after, he, hb, hX⟩ := h
  exact ⟨before, a, after, he, hE _ _ hb, hX⟩

/-- What holds after a step exactly if the step meets `E`, or it held and the step does not meet
`X`, holds after a run exactly since an action with `E`.  `I` is an invariant of the states. -/
theorem since_iff {I Q : σ → Prop} {E X : σ → α → Prop} (hI : ∀ s a, I s → I (M.next s a))
    (hstep : ∀ s a, I s → (Q (M.next s a) ↔ E s a ∨ Q s ∧ ¬ X s a)) {s : σ} (h0 : I s)
    (hnot : ¬ Q s) (as : List α) : Q (M.exec s as) ↔ M.Since E X s as := by
  induction as using List.reverseRecOn with
  | nil =>
    refine iff_of_false hnot ?_
    rintro ⟨before, a, after, he, -⟩
    cases before <;> cases he
  | append_singleton as a ih =>
    rw [exec_concat, since_concat, hstep _ a (M.invariant hI h0 as), ih]

/-! ## Refinement -/

/-- A step of `M` leaves the state, or is the step of `M'` with an action that `Q` relates to it. -/
def Refines {β ψ : Type} (M : Machine σ α ω) (M' : Machine σ β ψ) (Q : σ → α → β → Prop) : Prop :=
  ∀ s a, M.next s a = s ∨ ∃ b, Q s a b ∧ M'.next s b = M.next s a

variable {M} in
/-- Every run of `M` is one of `M'`, with at most one action for each of its own. -/
theorem Refines.run {β ψ : Type} {M' : Machine σ β ψ} {Q : σ → α → β → Prop}
    (h : Refines M M' Q) (s : σ) (as : List α) :
    ∃ bs, M'.exec s bs = M.exec s as ∧ bs.length ≤ as.length ∧
      ∀ b ∈ bs, M.Past (fun s a => Q s a b) s as := by
  induction as using List.reverseRecOn with
  | nil => exact ⟨[], rfl, Nat.le_refl _, List.forall_mem_nil _⟩
  | append_singleton as a ih =>
    obtain ⟨bs, hexec, hlength, hpast⟩ := ih
    have hearlier : ∀ b ∈ bs, M.Past (fun s a => Q s a b) s (as ++ [a]) := fun b hb =>
      (M.past_concat).mpr (Or.inl (hpast b hb))
    rw [exec_concat, List.length_append, List.length_singleton]
    rcases h (M.exec s as) a with hstay | ⟨b, hb, hnext⟩
    · rw [hstay]
      exact ⟨bs, hexec, Nat.le_succ_of_le hlength, hearlier⟩
    · refine ⟨bs ++ [b], ?_, ?_, ?_⟩
      · rw [exec_concat, hexec, hnext]
      · rw [List.length_append, List.length_singleton]
        exact Nat.succ_le_succ hlength
      · intro c hc
        rcases List.mem_append.mp hc with hc | hc
        · exact hearlier c hc
        · obtain rfl := List.mem_singleton.mp hc
          exact (M.past_concat).mpr (Or.inr hb)

/-! ## Runs with hidden actions -/

/-- What the actions with `p` are answered. -/
def observed (p : α → Bool) (s : σ) : List α → List ω
  | [] => []
  | a :: as =>
    if p a then M.answer s a :: observed p (M.next s a) as else observed p (M.next s a) as

/-- `M` takes the actions with `p` as `M'` does, and no other action has an effect on it. -/
structure Narrows (M M' : Machine σ α ω) (p : α → Bool) : Prop where
  taken : ∀ s a, p a = true → M.step s a = M'.step s a
  refused : ∀ s a, p a = false → M.next s a = s

variable {M} in
/-- A run of the narrower machine is the run of the other one with the actions with `p` alone. -/
theorem Narrows.run {M' : Machine σ α ω} {p : α → Bool} (h : Narrows M M' p) (s : σ)
    (as : List α) : M.exec s as = M'.exec s (as.filter p) ∧
      M.observed p s as = M'.observed p s (as.filter p) := by
  induction as generalizing s with
  | nil => exact ⟨rfl, rfl⟩
  | cons a as ih =>
    cases hp : p a with
    | true =>
      have hnext : M.next s a = M'.next s a := congrArg Prod.fst (h.taken s a hp)
      have hanswer : M.answer s a = M'.answer s a := congrArg Prod.snd (h.taken s a hp)
      obtain ⟨hexec, hobserved⟩ := ih (M'.next s a)
      rw [List.filter_cons_of_pos hp]
      simp only [exec_cons, observed, hp, if_true, hnext, hanswer, hexec, hobserved, and_self]
    | false =>
      obtain ⟨hexec, hobserved⟩ := ih s
      rw [List.filter_cons_of_neg (by simp [hp]), exec_cons, observed, hp, h.refused s a hp]
      exact ⟨hexec, hobserved⟩

/-- The positions of a list are its head and those of its tail. -/
theorem forall_positions_cons {Q : List α → α → Prop} {a : α} {as : List α} :
    (∀ before b after, a :: as = before ++ b :: after → Q before b) ↔
      Q [] a ∧ ∀ before b after, as = before ++ b :: after → Q (a :: before) b := by
  constructor
  · intro h
    refine ⟨h [] a as rfl, fun before b after he => h (a :: before) b after ?_⟩
    rw [he, List.cons_append]
  · rintro ⟨hhead, htail⟩ before b after he
    cases before with
    | nil =>
      obtain ⟨rfl, rfl⟩ := List.cons.inj he
      exact hhead
    | cons c before =>
      obtain ⟨rfl, htl⟩ := List.cons.inj he
      exact htail before b after htl

/-- A run beside the same run without its hidden actions.  `R` relates the two states, and `C`
says where the other actions are answered alike. -/
theorem observed_filter_iff {R : σ → σ → Prop} {C : σ → σ → α → Prop} {G : σ → α → Prop}
    {p : α → Bool}
    (hhidden : ∀ s s' a, R s s' → p a = false → G s a → R (M.next s a) s')
    (hagree : ∀ s s' a, R s s' → p a = true → G s a → C s s' a →
      M.answer s a = M.answer s' a ∧ R (M.next s a) (M.next s' a))
    (hdiffer : ∀ s s' a, R s s' → p a = true → ¬ C s s' a → M.answer s a ≠ M.answer s' a)
    {s s' : σ} (h : R s s') {as : List α} (hG : M.Every G s as) :
    M.observed p s as = M.observed p s' (as.filter p) ↔
      ∀ before a after, as = before ++ a :: after → p a = true →
        C (M.exec s before) (M.exec s' (before.filter p)) a := by
  induction as generalizing s s' with
  | nil =>
    refine iff_of_true rfl fun before a after he => ?_
    cases before <;> cases he
  | cons a as ih =>
    obtain ⟨hga, hG⟩ := hG
    rw [forall_positions_cons (Q := fun before b => p b = true →
      C (M.exec s before) (M.exec s' (before.filter p)) b), observed]
    by_cases hp : p a = true
    · rw [if_pos hp, List.filter_cons_of_pos hp, observed, if_pos hp]
      by_cases hc : C s s' a
      · obtain ⟨hans, hr⟩ := hagree s s' a h hp hga hc
        rw [hans, List.cons.injEq, and_iff_right rfl, ih hr hG]
        refine (and_iff_right fun _ => hc).symm.trans (and_congr_right fun _ => ?_)
        simp only [exec_cons, List.filter_cons_of_pos hp]
      · refine iff_of_false (fun he => ?_) fun hall => hc (hall.1 hp)
        exact hdiffer s s' a h hp hc (List.cons.inj he).1
    · have hfalse : p a = false := by simpa using hp
      rw [if_neg hp, List.filter_cons_of_neg hp, ih (hhidden s s' a h hfalse hga) hG]
      refine (and_iff_right fun hpa => absurd hpa hp).symm.trans (and_congr_right fun _ => ?_)
      simp only [exec_cons, List.filter_cons_of_neg hp]

end Machine
