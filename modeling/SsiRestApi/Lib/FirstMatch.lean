import Mathlib.Data.List.Sort
import Mathlib.Data.List.TakeWhile

/-!
# The first match of a sorted list

A list is sorted by a key, stably, and searched for its first match.  The match found
has the lowest key of all matches, and of several such any one can be found: which one,
the order of the list before the sort decides.

    the match's g is the same for every order of the list
      ↔ g is one value on the matches of lowest key                  (find_order_free_iff)
-/

namespace FirstMatch

variable {α β : Type} [LinearOrder β]

def sorted (key : α → β) (l : List α) : List α := l.insertionSort fun a b => key a ≤ key b

/-- The first match in the order of the keys. -/
def find (key : α → β) (f : α → Bool) (l : List α) : Option α := (sorted key l).find? f

/-- A match than which none has a lower key. -/
def Lowest (key : α → β) (f : α → Bool) (l : List α) (a : α) : Prop :=
  a ∈ l ∧ f a = true ∧ ∀ b ∈ l, f b = true → key a ≤ key b

variable {key : α → β} {f : α → Bool} {l l' : List α} {a : α}

theorem mem_sorted : a ∈ sorted key l ↔ a ∈ l := List.mem_insertionSort _

theorem pairwise_sorted (key : α → β) (l : List α) :
    (sorted key l).Pairwise fun a b => key a ≤ key b := by
  have : Std.Total fun a b : α => key a ≤ key b := ⟨fun a b => le_total (key a) (key b)⟩
  have : IsTrans α fun a b : α => key a ≤ key b := ⟨fun _ _ _ => le_trans⟩
  exact List.pairwise_insertionSort _ l

theorem find_eq_none_iff : find key f l = none ↔ ∀ a ∈ l, f a = false := by
  simp [find, mem_sorted]

/-- The match found is one of lowest key. -/
theorem lowest_of_find (h : find key f l = some a) : Lowest key f l a := by
  obtain ⟨hmatch, before, after, hsplit, hbefore⟩ := List.find?_eq_some_iff_append.mp h
  have hpair := pairwise_sorted key l
  rw [hsplit] at hpair
  have hmem : ∀ b, b ∈ l ↔ b ∈ before ++ a :: after := fun b => by rw [← hsplit, mem_sorted]
  refine ⟨(hmem a).mpr (by simp), hmatch, fun b hb hfb => ?_⟩
  rcases List.mem_append.mp ((hmem b).mp hb) with hb | hb
  · have hno : f b = false := by simpa using hbefore b hb
    cases hno.symm.trans hfb
  · rcases List.mem_cons.mp hb with rfl | hb
    · exact le_refl _
    · exact (List.pairwise_cons.mp (List.pairwise_append.mp hpair).2.1).1 b hb

/-- A match of lowest key at the head of the list is the one found. -/
theorem find_cons_of_lowest (h : Lowest key f (a :: l) a) : find key f (a :: l) = some a := by
  obtain ⟨-, hmatch, hlowest⟩ := h
  unfold find sorted
  rw [List.insertionSort_cons_eq_take_drop]
  refine List.find?_eq_some_iff_append.mpr ⟨hmatch, _, _, rfl, fun b hb => ?_⟩
  -- what the sort puts before `a` has a lower key, so it is no match
  have hlt : ¬ key a ≤ key b := by simpa using List.mem_takeWhile_imp hb
  have hbl : b ∈ l := mem_sorted.mp ((List.takeWhile_prefix _).subset hb)
  by_contra hfb
  exact hlt (hlowest b (List.mem_cons_of_mem _ hbl) (by simpa using hfb))

theorem lowest_perm (h : l.Perm l') : Lowest key f l a ↔ Lowest key f l' a := by
  simp only [Lowest, h.mem_iff]

/-- Each match of lowest key is the one found in some order of the list. -/
theorem exists_perm_find (h : Lowest key f l a) : ∃ l', l'.Perm l ∧ find key f l' = some a := by
  obtain ⟨before, after, rfl⟩ := List.append_of_mem h.1
  have hperm : (a :: (before ++ after)).Perm (before ++ a :: after) := List.perm_middle.symm
  exact ⟨_, hperm, find_cons_of_lowest ((lowest_perm hperm).mpr h)⟩

/-- What is found does not depend on the order of the list exactly when the matches of lowest
key agree. -/
theorem find_order_free_iff {γ : Type} (g : α → γ) :
    (∀ l₁ l₂ : List α, l₁.Perm l → l₂.Perm l →
        (find key f l₁).map g = (find key f l₂).map g) ↔
      ∀ a b, Lowest key f l a → Lowest key f l b → g a = g b := by
  constructor
  · intro h a b ha hb
    obtain ⟨l₁, hl₁, hfa⟩ := exists_perm_find ha
    obtain ⟨l₂, hl₂, hfb⟩ := exists_perm_find hb
    have heq := h l₁ l₂ hl₁ hl₂
    rw [hfa, hfb] at heq
    exact Option.some.inj heq
  · intro h l₁ l₂ hl₁ hl₂
    have hperm : l₁.Perm l₂ := hl₁.trans hl₂.symm
    cases h₁ : find key f l₁ with
    | none =>
      have h₂ : find key f l₂ = none :=
        find_eq_none_iff.mpr fun a ha => find_eq_none_iff.mp h₁ a (hperm.mem_iff.mpr ha)
      rw [h₂]
    | some a =>
      have ha := lowest_of_find h₁
      cases h₂ : find key f l₂ with
      | none =>
        cases (find_eq_none_iff.mp h₂ a (hperm.mem_iff.mp ha.1)).symm.trans ha.2.1
      | some b =>
        have hb := lowest_of_find h₂
        rw [Option.map_some, Option.map_some,
          h a b ((lowest_perm hl₁).mp ha) ((lowest_perm hl₂).mp hb)]

end FirstMatch
