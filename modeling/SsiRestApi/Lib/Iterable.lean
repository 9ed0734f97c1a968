import Mathlib.Data.List.Basic

/-!
# Iterables and nested comprehensions

What a pass over an iterable yields and leaves: a collection starts anew each time, an
iterator is used up by the first pass.

    [f x y for x in xs for y in it] is the product when a pass leaves `it` as it was, and the
    part of the first `x` when it leaves nothing
                                                (nested_of_rest_eq, nested_cons_of_used_up)
-/

namespace Py

universe u v w

variable {α : Type u} {β : Type v} {γ : Type w}

inductive Iterable (α : Type u) where
  /-- A list or a tuple. -/
  | collection (items : List α)
  /-- A generator, with what it has yet to yield. -/
  | iterator (items : List α)

/-- What a pass yields. -/
def Iterable.items : Iterable α → List α
  | collection items => items
  | iterator items => items

/-- What a pass to the end leaves. -/
def Iterable.rest : Iterable α → Iterable α
  | collection items => collection items
  | iterator _ => iterator []

/-- `[f x y for x in xs for y in it]`. -/
def nested (f : β → α → γ) : List β → Iterable α → List γ
  | [], _ => []
  | x :: xs, it => it.items.map (f x) ++ nested f xs it.rest

theorem Iterable.rest_cases (it : Iterable α) : it.rest = it ∨ it.rest.items = [] := by
  cases it with
  | collection items => exact Or.inl rfl
  | iterator items => exact Or.inr rfl

theorem Iterable.rest_eq_of_items_eq_nil {it : Iterable α} (h : it.items = []) : it.rest = it := by
  cases it with
  | collection items => rfl
  | iterator items => exact congrArg iterator h.symm

variable {f : β → α → γ}

theorem nested_of_rest_eq {it : Iterable α} (h : it.rest = it) (xs : List β) :
    nested f xs it = xs.flatMap fun x => it.items.map (f x) := by
  induction xs with
  | nil => rfl
  | cons x xs ih => rw [nested, h, ih, List.flatMap_cons]

theorem nested_of_items_eq_nil {it : Iterable α} (h : it.items = []) (xs : List β) :
    nested f xs it = [] := by
  rw [nested_of_rest_eq (Iterable.rest_eq_of_items_eq_nil h), h]
  simp

theorem nested_cons_of_used_up {it : Iterable α} (h : it.rest.items = []) (x : β) (xs : List β) :
    nested f (x :: xs) it = it.items.map (f x) := by
  rw [nested, nested_of_items_eq_nil h, List.append_nil]

end Py
