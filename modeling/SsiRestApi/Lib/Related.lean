import Mathlib.Data.List.Forall2
import SsiRestApi.Lib.Json

/-!
# Arguments that differ in some values

Two argument dictionaries with the same keys whose values are related key by key.

    merging related dictionaries gives related ones                (Related.update)
-/

namespace Py.Kw

/-- The same keys in the same order, with related values. -/
def Related (R : String → Json → Json → Prop) (kw kw' : Kw) : Prop :=
  List.Forall₂ (fun field field' => field.1 = field'.1 ∧ R field.1 field.2 field'.2) kw kw'

namespace Related

variable {R : String → Json → Json → Prop} {kw kw' new new' : Kw}

theorem refl (hrefl : ∀ key v, R key v v) (kw : Kw) : Related R kw kw := by
  induction kw with
  | nil => exact .nil
  | cons field kw ih => exact .cons ⟨rfl, hrefl _ _⟩ ih

/-- Each value replaced by a related one. -/
theorem map {f : String → Json → Json} (hf : ∀ field ∈ kw, R field.1 field.2 (f field.1 field.2)) :
    Related R kw (kw.map fun field => (field.1, f field.1 field.2)) := by
  induction kw with
  | nil => exact .nil
  | cons field kw ih =>
    exact .cons ⟨rfl, hf field List.mem_cons_self⟩
      (ih fun field' hf' => hf field' (List.mem_cons_of_mem _ hf'))

/-- A key is missing in both, or has related values. -/
theorem lookup (h : Related R kw kw') (key : String) :
    (kw.lookup key = none ∧ kw'.lookup key = none) ∨
      ∃ v v', kw.lookup key = some v ∧ kw'.lookup key = some v' ∧ R key v v' := by
  induction h with
  | nil => exact Or.inl ⟨rfl, rfl⟩
  | cons hf _ ih =>
    rename_i field field' kw kw' _
    obtain ⟨k, v⟩ := field
    obtain ⟨k', v'⟩ := field'
    obtain ⟨rfl, hr⟩ := hf
    by_cases hkey : key = k
    · subst hkey
      exact Or.inr ⟨v, v', by simp, by simp, hr⟩
    · have hb : (key == k) = false := beq_false_of_ne hkey
      simpa only [List.lookup_cons, hb] using ih

theorem lookup_isNone (h : Related R kw kw') (key : String) :
    (kw.lookup key).isNone = (kw'.lookup key).isNone := by
  rcases h.lookup key with ⟨hk, hk'⟩ | ⟨v, v', hk, hk', -⟩
  · rw [hk, hk']
  · rw [hk, hk']
    rfl

theorem update (h : Related R kw kw') (hnew : Related R new new') :
    Related R (kw.update new) (kw'.update new') := by
  unfold Kw.update
  refine List.rel_append ?_ ?_
  · refine List.forall₂_map_left_iff.mpr (List.forall₂_map_right_iff.mpr (h.imp ?_))
    rintro ⟨k, v⟩ ⟨k', v'⟩ ⟨rfl, hr⟩
    refine ⟨rfl, ?_⟩
    rcases hnew.lookup k with ⟨hk, hk'⟩ | ⟨w, w', hk, hk', hw⟩
    · simpa [hk, hk'] using hr
    · simpa [hk, hk'] using hw
  · induction hnew with
    | nil => exact .nil
    | cons hf _ ih =>
      rename_i field field' new new' _
      rw [List.filter_cons, List.filter_cons, ← hf.1, h.lookup_isNone]
      split
      · exact .cons hf ih
      · exact ih

end Related

end Py.Kw
