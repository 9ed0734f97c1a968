import Mathlib.Data.List.Basic

/-!
# Retried attempts

Attempts are made at a piece of work until one succeeds, one fails for good, or none
is left; the last failure is turned into a result (`giveUp`).  The state keeps what an
attempt did to it, whatever became of the attempt.

When outcomes do not depend on the state, a run is its last attempt in the state that
the earlier ones left:

    run s a rest = finish (before s a rest) (last a rest)               (run_eq)
    before measures as s does ↔ no earlier attempt adds to it   (measure_before_eq_iff)
-/

structure Retry (σ α ε β : Type) where
  attempt : σ → α → σ × Except ε β
  /-- Whether another attempt is made after one that failed. -/
  retried : α → ε → Bool
  giveUp : σ → α → ε → σ × β

namespace Retry

variable {σ α ε β : Type} (R : Retry σ α ε β)

/-- An attempt that is not followed by another. -/
def finish (s : σ) (a : α) : σ × β :=
  match R.attempt s a with
  | (s', .ok b) => (s', b)
  | (s', .error e) => R.giveUp s' a e

/-- Attempt `a`, and as long as it takes the ones after it. -/
def run : σ → α → List α → σ × β
  | s, a, [] => R.finish s a
  | s, a, next :: rest =>
    match R.attempt s a with
    | (s', .ok b) => (s', b)
    | (s', .error e) => if R.retried a e then run s' next rest else R.giveUp s' a e

variable {R} in
theorem finish_ok {s s' : σ} {a : α} {b : β} (h : R.attempt s a = (s', .ok b)) :
    R.finish s a = (s', b) := by
  rw [finish, h]

variable {R} in
theorem finish_error {s s' : σ} {a : α} {e : ε} (h : R.attempt s a = (s', .error e)) :
    R.finish s a = R.giveUp s' a e := by
  rw [finish, h]

variable {R} in
theorem run_ok {s s' : σ} {a next : α} {rest : List α} {b : β}
    (h : R.attempt s a = (s', .ok b)) : R.run s a (next :: rest) = (s', b) := by
  rw [run, h]

variable {R} in
theorem run_error {s s' : σ} {a next : α} {rest : List α} {e : ε}
    (h : R.attempt s a = (s', .error e)) :
    R.run s a (next :: rest) =
      if R.retried a e then R.run s' next rest else R.giveUp s' a e := by
  rw [run, h]

/-- The state after an attempt. -/
def leave (s : σ) (a : α) : σ := (R.attempt s a).1

/-! ## The attempts made -/

variable (outcome : α → Except ε β)

/-- The outcome of an attempt is the same in every state. -/
def Determined : Prop := ∀ s a, (R.attempt s a).2 = outcome a

/-- The attempt fails in a way that calls for another one. -/
def again (a : α) : Bool :=
  match outcome a with
  | .ok _ => false
  | .error e => R.retried a e

/-- The attempts made before the last one. -/
def earlier : α → List α → List α
  | _, [] => []
  | a, next :: rest => if R.again outcome a then a :: earlier next rest else []

/-- The state the last attempt finds. -/
def before (s : σ) (a : α) (rest : List α) : σ := (R.earlier outcome a rest).foldl R.leave s

/-- The last attempt made. -/
def last : α → List α → α
  | a, [] => a
  | a, next :: rest => if R.again outcome a then last next rest else a

variable {R outcome}

theorem attempt_eq (h : R.Determined outcome) (s : σ) (a : α) :
    R.attempt s a = (R.leave s a, outcome a) := by
  rw [← h s a]
  rfl

theorem run_eq (h : R.Determined outcome) (s : σ) (a : α) (rest : List α) :
    R.run s a rest = R.finish (R.before outcome s a rest) (R.last outcome a rest) := by
  unfold before
  induction rest generalizing s a with
  | nil => rfl
  | cons next rest ih =>
    have hattempt := attempt_eq h s a
    unfold earlier last again
    cases hout : outcome a with
    | ok b =>
      rw [hout] at hattempt
      simp [run_ok hattempt, finish_ok hattempt]
    | error e =>
      rw [hout] at hattempt
      rw [run_error hattempt]
      cases hr : R.retried a e with
      | true => simpa [hr] using ih (R.leave s a) next
      | false => simp [finish_error hattempt, hr]

theorem mem_of_mem_earlier {a b : α} {rest : List α} (hb : b ∈ R.earlier outcome a rest) :
    b ∈ a :: rest := by
  induction rest generalizing a with
  | nil => cases hb
  | cons next rest ih =>
    unfold earlier at hb
    split at hb
    · rcases List.mem_cons.mp hb with rfl | hb
      · exact List.mem_cons_self
      · exact List.mem_cons_of_mem _ (ih hb)
    · cases hb

theorem last_mem (R : Retry σ α ε β) (outcome : α → Except ε β) (a : α) (rest : List α) :
    R.last outcome a rest ∈ a :: rest := by
  induction rest generalizing a with
  | nil => exact List.mem_cons_self
  | cons next rest ih =>
    unfold last
    split
    · exact List.mem_cons_of_mem _ (ih next)
    · exact List.mem_cons_self

/-! ## What attempts leave behind -/

/-- A measure that every attempt may add to never shrinks. -/
theorem measure_le_foldl {measure : σ → Nat} {added : α → Nat} {as : List α}
    (h : ∀ s, ∀ a ∈ as, measure (R.leave s a) = measure s + added a) (s : σ) :
    measure s ≤ measure (as.foldl R.leave s) := by
  induction as generalizing s with
  | nil => exact Nat.le_refl _
  | cons a as ih =>
    have hle := ih (fun s b hb => h s b (List.mem_cons_of_mem _ hb)) (R.leave s a)
    have ha := h s a List.mem_cons_self
    rw [List.foldl_cons]
    omega

/-- It stays what it was exactly when no attempt adds to it. -/
theorem measure_foldl_eq_iff {measure : σ → Nat} {added : α → Nat} {as : List α}
    (h : ∀ s, ∀ a ∈ as, measure (R.leave s a) = measure s + added a) (s : σ) :
    measure (as.foldl R.leave s) = measure s ↔ ∀ a ∈ as, added a = 0 := by
  induction as generalizing s with
  | nil => simp
  | cons a as ih =>
    have htail : ∀ s, ∀ b ∈ as, measure (R.leave s b) = measure s + added b :=
      fun s b hb => h s b (List.mem_cons_of_mem _ hb)
    have hle := measure_le_foldl htail (R.leave s a)
    have ha := h s a List.mem_cons_self
    rw [List.foldl_cons, List.forall_mem_cons, ← ih htail (R.leave s a)]
    omega

variable (outcome) in
/-- The last attempt finds the measure as it was exactly when no earlier attempt added to it. -/
theorem measure_before_eq_iff (measure : σ → Nat) (added : α → Nat) {a : α} {rest : List α}
    (h : ∀ s, ∀ b ∈ a :: rest, measure (R.leave s b) = measure s + added b) (s : σ) :
    measure (R.before outcome s a rest) = measure s ↔
      ∀ b ∈ R.earlier outcome a rest, added b = 0 :=
  measure_foldl_eq_iff (fun s b hb => h s b (mem_of_mem_earlier hb)) s

end Retry
