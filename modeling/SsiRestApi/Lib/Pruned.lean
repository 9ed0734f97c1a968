import Mathlib.Data.List.Basic

/-!
# Pruned lists

`l` is `l'` without some of its elements that meet `D`.

    a filter that lets no such element through cannot tell the two apart         (filter_eq)
-/

namespace List

universe u v

variable {α : Type u} {β : Type v}

inductive Pruned (D : α → Prop) : List α → List α → Prop
  | nil : Pruned D [] []
  | keep (a : α) {l l' : List α} : Pruned D l l' → Pruned D (a :: l) (a :: l')
  | drop {a : α} {l l' : List α} : D a → Pruned D l l' → Pruned D l (a :: l')

namespace Pruned

variable {D : α → Prop} {l l' : List α}

theorem refl (l : List α) : Pruned D l l := by
  induction l with
  | nil => exact .nil
  | cons a l ih => exact .keep a ih

theorem mono {E : α → Prop} (hde : ∀ a, D a → E a) (h : Pruned D l l') : Pruned E l l' := by
  induction h with
  | nil => exact .nil
  | keep a _ ih => exact .keep a ih
  | drop ha _ ih => exact .drop (hde _ ha) ih

theorem mem (h : Pruned D l l') {a : α} (ha : a ∈ l) : a ∈ l' := by
  induction h with
  | nil => exact ha
  | keep b _ ih =>
    rcases mem_cons.mp ha with rfl | ha
    · exact mem_cons_self
    · exact mem_cons_of_mem _ (ih ha)
  | drop _ _ ih => exact mem_cons_of_mem _ (ih ha)

theorem map {E : β → Prop} {f : α → β} (hf : ∀ a, D a → E (f a)) (h : Pruned D l l') :
    Pruned E (l.map f) (l'.map f) := by
  induction h with
  | nil => exact .nil
  | keep a _ ih => exact .keep (f a) ih
  | drop ha _ ih => exact .drop (hf _ ha) ih

theorem filter (p : α → Bool) (h : Pruned D l l') : Pruned D (l.filter p) (l'.filter p) := by
  induction h with
  | nil => exact .nil
  | keep a _ ih =>
    rw [filter_cons, filter_cons]
    split
    · exact .keep a ih
    · exact ih
  | drop ha _ ih =>
    rw [filter_cons]
    split
    · exact .drop ha ih
    · exact ih

/-- More elements go, if they meet `D`. -/
theorem filter_left {p : α → Bool} (h : Pruned D l l') (hp : ∀ a ∈ l, p a = false → D a) :
    Pruned D (l.filter p) l' := by
  induction h with
  | nil => exact .nil
  | keep a _ ih =>
    have ih := ih fun b hb => hp b (mem_cons_of_mem _ hb)
    rw [filter_cons]
    split
    · exact .keep a ih
    · next hpa => exact .drop (hp a mem_cons_self (by simpa using hpa)) ih
  | drop ha _ ih => exact .drop ha (ih hp)

/-- In a list without duplicates, what goes is nowhere in the pruned list. -/
theorem sharpen (h : Pruned D l l') (hnodup : l'.Nodup) :
    Pruned (fun a => D a ∧ a ∈ l' ∧ a ∉ l) l l' := by
  induction h with
  | nil => exact .nil
  | keep a h ih =>
    obtain ⟨hnot, hnodup⟩ := nodup_cons.mp hnodup
    refine .keep a ((ih hnodup).mono ?_)
    rintro b ⟨hb, hin, hout⟩
    refine ⟨hb, mem_cons_of_mem _ hin, fun hba => ?_⟩
    rcases mem_cons.mp hba with rfl | hba
    · exact hnot hin
    · exact hout hba
  | drop ha h ih =>
    obtain ⟨hnot, hnodup⟩ := nodup_cons.mp hnodup
    refine .drop ⟨ha, mem_cons_self, fun hin => hnot (h.mem hin)⟩ ((ih hnodup).mono ?_)
    rintro b ⟨hb, hin, hout⟩
    exact ⟨hb, mem_cons_of_mem _ hin, hout⟩

theorem filter_eq {p : α → Bool} (h : Pruned D l l') (hp : ∀ a, D a → p a = false) :
    l.filter p = l'.filter p := by
  induction h with
  | nil => rfl
  | keep a _ ih => rw [filter_cons, filter_cons, ih]
  | drop ha _ ih => rw [filter_cons_of_neg (by simp [hp _ ha]), ih]

end Pruned

end List
