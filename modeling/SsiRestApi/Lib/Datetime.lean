import Mathlib.Tactic.Common

/-!
# Datetimes and differences of days

`datetime` and `timedelta` of the Python standard library, with the ranges outside which
their arithmetic raises an `OverflowError`.

    t - timedelta(days=n) is n days before t, unless that is before datetime.min
                                                    (minusDays_eq, minusDays_eq_error)
-/

namespace Py

/-- The microseconds of a day. -/
def dayMicros : Nat := 86400 * 1000000

/-- `datetime`, in microseconds since `datetime.min`; `datetime.max.toordinal()` is 3652059. -/
structure Datetime where
  micros : Nat
  inRange : micros < 3652059 * dayMicros
deriving DecidableEq

/-- `timedelta`, in microseconds. -/
structure Timedelta where
  micros : Int
  inRange : -999999999 * (dayMicros : Int) ≤ micros ∧ micros < 1000000000 * (dayMicros : Int)
deriving DecidableEq

instance : LT Datetime := ⟨fun t t' => t.micros < t'.micros⟩

instance (t t' : Datetime) : Decidable (t < t') := inferInstanceAs (Decidable (t.micros < t'.micros))

theorem Datetime.lt_def {t t' : Datetime} : t < t' ↔ t.micros < t'.micros := Iff.rfl

/-- `timedelta(days=n)`, or the name of the exception. -/
def Timedelta.ofDays (n : Int) : Except String Timedelta :=
  if h : -999999999 ≤ n ∧ n < 1000000000 then
    .ok ⟨n * dayMicros, by unfold dayMicros; omega⟩
  else .error "OverflowError"

/-- `t - delta`, or the name of the exception. -/
def Datetime.sub (t : Datetime) (delta : Timedelta) : Except String Datetime :=
  if h : 0 ≤ t.micros - delta.micros ∧ t.micros - delta.micros < 3652059 * (dayMicros : Int) then
    .ok ⟨(t.micros - delta.micros).toNat, by omega⟩
  else .error "OverflowError"

/-- `t - timedelta(days=n)`. -/
def Datetime.minusDays (t : Datetime) (n : Int) : Except String Datetime := do
  t.sub (← Timedelta.ofDays n)

/-- `t` is more than `n` days before `now`. -/
def Datetime.OlderThan (t : Datetime) (n : Int) (now : Datetime) : Prop :=
  t.micros + n * dayMicros < now.micros

instance (t : Datetime) (n : Int) (now : Datetime) : Decidable (t.OlderThan n now) :=
  inferInstanceAs (Decidable ((_ : Int) < _))

variable {t now : Datetime} {n : Int}

/-- The calendar is shorter than the longest difference. -/
theorem Datetime.days_lt (h : n * dayMicros ≤ t.micros) : n < 1000000000 := by
  have hlt := t.inRange
  unfold dayMicros at h hlt
  omega

theorem Datetime.minusDays_eq (hn : 0 ≤ n) (h : n * dayMicros ≤ t.micros) :
    ∃ cutoff, t.minusDays n = .ok cutoff ∧ cutoff.micros + n * dayMicros = t.micros := by
  have hdays : -999999999 ≤ n ∧ n < 1000000000 := ⟨by omega, days_lt h⟩
  have hrange := t.inRange
  have hpos : 0 ≤ n * (dayMicros : Int) := Int.mul_nonneg hn (Int.natCast_nonneg _)
  have hsub : 0 ≤ t.micros - n * (dayMicros : Int) ∧
      t.micros - n * (dayMicros : Int) < 3652059 * (dayMicros : Int) := by
    constructor <;> omega
  refine ⟨⟨(t.micros - n * (dayMicros : Int)).toNat, by omega⟩, ?_, ?_⟩
  · unfold minusDays Timedelta.ofDays
    rw [dif_pos hdays]
    exact dif_pos hsub
  · dsimp only
    omega

theorem Datetime.minusDays_eq_error (h : (t.micros : Int) < n * dayMicros) :
    t.minusDays n = .error "OverflowError" := by
  unfold minusDays Timedelta.ofDays
  split
  · exact dif_neg fun hsub => by
      have := hsub.1
      dsimp only at this
      omega
  · rfl

end Py
