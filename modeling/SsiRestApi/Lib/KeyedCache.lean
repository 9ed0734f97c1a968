import Mathlib.Logic.Function.Basic
import Mathlib.Tactic.Common

/-!
# Caches of objects

A cache holds an object for a key, and the tag the object was made for; a call for the same key
and another tag makes a new object in its place.  Objects have addresses, and one that the cache
forgets stays with those who hold it.

    a coherent cache returns an object of the tag asked for                 (bound_call_get)
    an entry stays until a call of its key invalidates it or asks for another tag
                                                                (entries_call_of_not_disturbs)
-/

structure KeyedCache (κ τ α : Type) where
  /-- The tag and the address of the object of a key. -/
  entries : κ → Option (τ × Nat)
  /-- Every object made so far. -/
  objects : List α

namespace KeyedCache

variable {κ τ α : Type}

def empty : KeyedCache κ τ α := ⟨fun _ => none, []⟩

/-- What is asked of a cache. -/
inductive Call (κ τ : Type) where
  | get (key : κ) (tag : τ)
  | invalidate (key : κ)
  deriving DecidableEq

/-- The calls after which a key no longer has its object of a tag. -/
def Call.Disturbs (key : κ) (tag : τ) : Call κ τ → Prop
  | get key' tag' => key' = key ∧ tag' ≠ tag
  | invalidate key' => key' = key

instance [DecidableEq κ] [DecidableEq τ] (key : κ) (tag : τ) (call : Call κ τ) :
    Decidable (call.Disturbs key tag) :=
  match call with
  | .get _ _ => inferInstanceAs (Decidable (_ ∧ _))
  | .invalidate _ => inferInstanceAs (Decidable (_ = _))

section
variable [DecidableEq κ] [DecidableEq τ]

/-- The object of a key, made anew when there is none of the tag. -/
def get (make : τ → α) (key : κ) (tag : τ) (c : KeyedCache κ τ α) : KeyedCache κ τ α × Nat :=
  let address := c.objects.length
  let made : KeyedCache κ τ α :=
    ⟨Function.update c.entries key (some (tag, address)), c.objects ++ [make tag]⟩
  match c.entries key with
  | some (tag', address') => if tag' = tag then (c, address') else (made, address)
  | none => (made, address)

def invalidate (key : κ) (c : KeyedCache κ τ α) : KeyedCache κ τ α :=
  { c with entries := Function.update c.entries key none }

def call (make : τ → α) (c : KeyedCache κ τ α) : Call κ τ → KeyedCache κ τ α × Option Nat
  | .get key tag => let (c, address) := c.get make key tag; (c, some address)
  | .invalidate key => (c.invalidate key, none)

end

/-- An object changes under its address. -/
def modify (address : Nat) (f : α → α) (c : KeyedCache κ τ α) : KeyedCache κ τ α :=
  { c with objects := c.objects.modify address f }

/-- The object at an address is of a tag. -/
def Bound (tagOf : α → τ) (c : KeyedCache κ τ α) (address : Nat) (tag : τ) : Prop :=
  ∃ object, c.objects[address]? = some object ∧ tagOf object = tag

/-- Every entry is an object of its tag. -/
def Coherent (tagOf : α → τ) (c : KeyedCache κ τ α) : Prop :=
  ∀ key tag address, c.entries key = some (tag, address) → c.Bound tagOf address tag

variable {tagOf : α → τ} {make : τ → α} {c : KeyedCache κ τ α} {key : κ} {tag : τ} {address : Nat}

theorem coherent_empty : (empty : KeyedCache κ τ α).Coherent tagOf := by
  intro key tag address h
  cases h

/-! ## Objects -/

theorem Bound.modify (h : c.Bound tagOf address tag) {f : α → α}
    (hf : ∀ object, tagOf (f object) = tagOf object) (address' : Nat) :
    (c.modify address' f).Bound tagOf address tag := by
  obtain ⟨object, hobject, htag⟩ := h
  unfold Bound KeyedCache.modify
  dsimp only
  rw [List.getElem?_modify, hobject]
  refine ⟨_, rfl, ?_⟩
  dsimp only
  split
  · rw [hf, htag]
  · exact htag

theorem Coherent.modify (h : c.Coherent tagOf) {f : α → α}
    (hf : ∀ object, tagOf (f object) = tagOf object) (address : Nat) :
    (c.modify address f).Coherent tagOf := by
  intro key tag address' hentry
  exact (h key tag address' hentry).modify hf address

theorem Bound.append (h : c.Bound tagOf address tag) (object : α)
    (entries : κ → Option (τ × Nat)) :
    Bound tagOf ⟨entries, c.objects ++ [object]⟩ address tag := by
  obtain ⟨found, hfound, htag⟩ := h
  have hlt : address < c.objects.length := (List.getElem?_eq_some_iff.mp hfound).1
  refine ⟨found, ?_, htag⟩
  dsimp only
  rw [List.getElem?_append_left hlt, hfound]

theorem forall_modify {P : α → Prop} (h : ∀ object ∈ c.objects, P object) {f : α → α}
    (hf : ∀ object, P object → P (f object)) (address : Nat) :
    ∀ object ∈ (c.modify address f).objects, P object := by
  intro object hobject
  obtain ⟨i, hi⟩ := List.mem_iff_getElem?.mp hobject
  unfold modify at hi
  dsimp only at hi
  rw [List.getElem?_modify] at hi
  obtain ⟨found, hfound, rfl⟩ := Option.map_eq_some_iff.mp hi
  have hin := h found (List.mem_of_getElem? hfound)
  split
  · exact hf found hin
  · exact hin

/-! ## Calls -/

variable [DecidableEq κ] [DecidableEq τ]

/-- Either the entry is of the tag, or a new object is made for it. -/
theorem get_cases (make : τ → α) (c : KeyedCache κ τ α) (key : κ) (tag : τ) :
    (∃ address, c.entries key = some (tag, address) ∧ c.get make key tag = (c, address)) ∨
      c.get make key tag =
        (⟨Function.update c.entries key (some (tag, c.objects.length)), c.objects ++ [make tag]⟩,
          c.objects.length) := by
  unfold get
  cases hentry : c.entries key with
  | none => exact Or.inr rfl
  | some entry =>
    obtain ⟨tag', address⟩ := entry
    dsimp only
    split
    · next heq => exact Or.inl ⟨address, by rw [heq], rfl⟩
    · exact Or.inr rfl

theorem get_of_entry (h : c.entries key = some (tag, address)) :
    c.get make key tag = (c, address) := by
  unfold get
  rw [h]
  exact if_pos rfl

/-- A call leaves its object in the entry. -/
theorem entries_get (make : τ → α) (c : KeyedCache κ τ α) (key : κ) (tag : τ) :
    (c.get make key tag).1.entries key = some (tag, (c.get make key tag).2) := by
  rcases get_cases make c key tag with ⟨address, hentry, hget⟩ | hget
  · rw [hget]
    exact hentry
  · rw [hget]
    exact Function.update_self _ _ _

theorem Bound.call (h : c.Bound tagOf address tag) (call : Call κ τ) :
    (c.call make call).1.Bound tagOf address tag := by
  cases call with
  | get key tag' =>
    unfold KeyedCache.call
    dsimp only
    rcases get_cases make c key tag' with ⟨_, -, hget⟩ | hget
    · rw [hget]
      exact h
    · rw [hget]
      exact h.append _ _
  | invalidate key => exact h

theorem Coherent.get (h : c.Coherent tagOf) (hmake : ∀ tag, tagOf (make tag) = tag) (key : κ)
    (tag : τ) : (c.get make key tag).1.Coherent tagOf := by
  rcases get_cases make c key tag with ⟨_, -, hget⟩ | hget
  · rw [hget]
    exact h
  · rw [hget]
    intro key' tag' address hentry
    dsimp only at hentry
    by_cases hkey : key' = key
    · subst hkey
      rw [Function.update_self] at hentry
      cases hentry
      exact ⟨make tag, by simp, hmake tag⟩
    · rw [Function.update_of_ne hkey] at hentry
      exact (h key' tag' address hentry).append _ _

theorem Coherent.call (h : c.Coherent tagOf) (hmake : ∀ tag, tagOf (make tag) = tag)
    (call : Call κ τ) : (c.call make call).1.Coherent tagOf := by
  cases call with
  | get key tag => exact h.get hmake key tag
  | invalidate key =>
    intro key' tag' address hentry
    unfold KeyedCache.call KeyedCache.invalidate at hentry
    dsimp only at hentry
    by_cases hkey : key' = key
    · subst hkey
      rw [Function.update_self] at hentry
      cases hentry
    · rw [Function.update_of_ne hkey] at hentry
      exact h key' tag' address hentry

/-- A coherent cache returns an object of the tag asked for. -/
theorem bound_call_get (h : c.Coherent tagOf) (hmake : ∀ tag, tagOf (make tag) = tag) (key : κ)
    (tag : τ) : (c.get make key tag).1.Bound tagOf (c.get make key tag).2 tag :=
  h.get hmake key tag key tag _ (entries_get make c key tag)

theorem forall_call {P : α → Prop} (h : ∀ object ∈ c.objects, P object)
    (hmake : ∀ tag, P (make tag)) (call : Call κ τ) :
    ∀ object ∈ (c.call make call).1.objects, P object := by
  cases call with
  | get key tag =>
    unfold KeyedCache.call
    dsimp only
    rcases get_cases make c key tag with ⟨_, -, hget⟩ | hget
    · rw [hget]
      exact h
    · rw [hget]
      intro object hobject
      rcases List.mem_append.mp hobject with hold | hnew
      · exact h object hold
      · obtain rfl := List.mem_singleton.mp hnew
        exact hmake tag
  | invalidate key => exact h

/-- An entry outlives every call but those that disturb it. -/
theorem entries_call_of_not_disturbs (h : c.entries key = some (tag, address)) {call : Call κ τ}
    (hcall : ¬ call.Disturbs key tag) :
    (c.call make call).1.entries key = some (tag, address) := by
  cases call with
  | get key' tag' =>
    unfold KeyedCache.call
    dsimp only
    by_cases hkey : key' = key
    · subst hkey
      obtain rfl : tag' = tag := by
        by_contra htag
        exact hcall ⟨rfl, htag⟩
      rw [get_of_entry h]
      exact h
    · rcases get_cases make c key' tag' with ⟨_, -, hget⟩ | hget
      · rw [hget]
        exact h
      · rw [hget]
        exact (Function.update_of_ne (Ne.symm hkey) _ _).trans h
  | invalidate key' =>
    exact (Function.update_of_ne (Ne.symm hcall) _ _).trans h

end KeyedCache
