import Mathlib.Data.List.AList
import Mathlib.Data.List.Induction
import Mathlib.Data.String.Basic

/-!
# Dictionaries with text keys

Python dictionaries up to the order of their items: `AList` with the loops that fill one
and with nested dictionaries.

    a key has a value the loop gave it, or the one it had         (lookup_assign)
    of several updates of a loop the last one counts             (cell_gather_eq)
-/

namespace Py

abbrev Dict (α : Type) := AList fun _ : String => α

namespace Dict

variable {α γ : Type}

/-- The assignments of a loop: `for x in l: d[key(x)] = value(x)`. -/
def assign (key : γ → String) (value : γ → α) (l : List γ) (d : Dict α) : Dict α :=
  l.foldl (fun d x => d.insert (key x) (value x)) d

/-- `dict(sorted(d.items()))`: keys do not repeat, so values are not compared. -/
def sorted (d : Dict α) : Dict α where
  entries := d.entries.mergeSort fun a b => decide (a.1 ≤ b.1)
  nodupKeys := (List.perm_nodupKeys (List.mergeSort_perm _ _)).mpr d.nodupKeys

@[simp] theorem lookup_sorted (d : Dict α) (k : String) : d.sorted.lookup k = d.lookup k :=
  AList.perm_lookup (List.mergeSort_perm _ _)

/-- A key has a value that the loop gave it, or the one it had. -/
theorem lookup_assign {key : γ → String} {value : γ → α} {l : List γ} {d : Dict α} {k : String}
    {a : α} (h : (assign key value l d).lookup k = some a) :
    (∃ x ∈ l, key x = k ∧ value x = a) ∨ d.lookup k = some a := by
  induction l generalizing d with
  | nil => exact Or.inr h
  | cons x l ih =>
    rcases ih h with ⟨y, hy, hkey⟩ | hd
    · exact Or.inl ⟨y, List.mem_cons_of_mem _ hy, hkey⟩
    · by_cases hk : k = key x
      · subst hk
        rw [AList.lookup_insert] at hd
        exact Or.inl ⟨x, List.mem_cons_self, rfl, Option.some.inj hd⟩
      · rw [AList.lookup_insert_ne hk] at hd
        exact Or.inr hd

theorem mem_assign {key : γ → String} {value : γ → α} {l : List γ} {d : Dict α} {k : String} :
    k ∈ assign key value l d ↔ (∃ x ∈ l, key x = k) ∨ k ∈ d := by
  induction l generalizing d with
  | nil =>
    constructor
    · exact Or.inr
    · rintro (⟨x, hx, -⟩ | hd)
      · cases hx
      · exact hd
  | cons x l ih =>
    change k ∈ assign key value l _ ↔ _
    rw [ih, AList.mem_insert]
    constructor
    · rintro (⟨y, hy, hkey⟩ | hk | hd)
      · exact Or.inl ⟨y, List.mem_cons_of_mem _ hy, hkey⟩
      · exact Or.inl ⟨x, List.mem_cons_self, hk.symm⟩
      · exact Or.inr hd
    · rintro (⟨y, hy, hkey⟩ | hd)
      · rcases List.mem_cons.mp hy with rfl | hy
        · exact Or.inr (Or.inl hkey.symm)
        · exact Or.inl ⟨y, hy, hkey⟩
      · exact Or.inr (Or.inr hd)

/-! ## Dictionaries of dictionaries -/

/-- `d[k1][k2]`. -/
def cell (d : Dict (Dict α)) (k1 k2 : String) : Option α := (d.lookup k1).bind (AList.lookup k2)

/-- `d.setdefault(k, {}).update(new)`. -/
def extend (d : Dict (Dict α)) (k : String) (new : Dict α) : Dict (Dict α) :=
  d.insert k (new ∪ (d.lookup k).getD ∅)

@[simp] theorem cell_sorted (d : Dict (Dict α)) (k1 k2 : String) :
    d.sorted.cell k1 k2 = d.cell k1 k2 := by
  unfold cell
  rw [lookup_sorted]

@[simp] theorem cell_empty (k1 k2 : String) : (∅ : Dict (Dict α)).cell k1 k2 = none := rfl

theorem cell_extend_of_mem {d : Dict (Dict α)} {new : Dict α} (k : String) {k2 : String}
    (h : k2 ∈ new) : (d.extend k new).cell k k2 = new.lookup k2 := by
  unfold cell extend
  rw [AList.lookup_insert, Option.bind_some, AList.lookup_union_left h]

theorem cell_extend_of_not {d : Dict (Dict α)} {new : Dict α} {k k1 k2 : String}
    (h : ¬ (k1 = k ∧ k2 ∈ new)) : (d.extend k new).cell k1 k2 = d.cell k1 k2 := by
  unfold cell extend
  by_cases hk : k1 = k
  · subst hk
    rw [AList.lookup_insert, Option.bind_some, AList.lookup_union_right fun hin => h ⟨rfl, hin⟩]
    cases d.lookup k1 with
    | none => rfl
    | some old => rfl
  · rw [AList.lookup_insert_ne hk]

/-- The updates of a loop: `for x in l: d.setdefault(key(x), {}).update(new(x))`. -/
def gather (key : γ → String) (new : γ → Dict α) (l : List γ) (d : Dict (Dict α)) :
    Dict (Dict α) :=
  l.foldl (fun d x => d.extend (key x) (new x)) d

/-- A cell has a value that the loop gave it, or the one it had. -/
theorem cell_gather {key : γ → String} {new : γ → Dict α} {l : List γ} {d : Dict (Dict α)}
    {k1 k2 : String} {a : α} (h : (gather key new l d).cell k1 k2 = some a) :
    (∃ x ∈ l, key x = k1 ∧ (new x).lookup k2 = some a) ∨ d.cell k1 k2 = some a := by
  induction l generalizing d with
  | nil => exact Or.inr h
  | cons x l ih =>
    rcases ih h with ⟨y, hy, hkey⟩ | hd
    · exact Or.inl ⟨y, List.mem_cons_of_mem _ hy, hkey⟩
    · by_cases hx : k1 = key x ∧ k2 ∈ new x
      · obtain ⟨rfl, hk2⟩ := hx
        rw [cell_extend_of_mem _ hk2] at hd
        exact Or.inl ⟨x, List.mem_cons_self, rfl, hd⟩
      · rw [cell_extend_of_not hx] at hd
        exact Or.inr hd

/-- A cell has the value of the last update that gave it one. -/
theorem cell_gather_eq (key : γ → String) (new : γ → Dict α) (l : List γ) (k1 k2 : String) :
    (gather key new l ∅).cell k1 k2 =
      (l.reverse.find? fun x => key x == k1 && decide (k2 ∈ new x)).bind fun x =>
        (new x).lookup k2 := by
  induction l using List.reverseRecOn with
  | nil => rfl
  | append_singleton l x ih =>
    have hlast : gather key new (l ++ [x]) ∅ = (gather key new l ∅).extend (key x) (new x) := by
      unfold gather
      rw [List.foldl_append]
      rfl
    rw [hlast, List.reverse_append, List.reverse_singleton, List.singleton_append, List.find?_cons]
    by_cases hx : k1 = key x ∧ k2 ∈ new x
    · obtain ⟨rfl, hk2⟩ := hx
      rw [cell_extend_of_mem _ hk2]
      simp [hk2]
    · rw [cell_extend_of_not hx, ih]
      have hfalse : (key x == k1 && decide (k2 ∈ new x)) = false := by
        rw [Bool.eq_false_iff, ne_eq, Bool.and_eq_true, beq_iff_eq, decide_eq_true_iff]
        exact fun h => hx ⟨h.1.symm, h.2⟩
      rw [hfalse]

/-- No update of the loop is lost to a later one. -/
theorem isSome_cell_gather {key : γ → String} {new : γ → Dict α} {l : List γ}
    {d : Dict (Dict α)} {k1 k2 : String}
    (h : (∃ x ∈ l, key x = k1 ∧ k2 ∈ new x) ∨ (d.cell k1 k2).isSome = true) :
    ((gather key new l d).cell k1 k2).isSome = true := by
  induction l generalizing d with
  | nil =>
    rcases h with ⟨x, hx, -⟩ | hd
    · cases hx
    · exact hd
  | cons x l ih =>
    apply ih
    by_cases hx : k1 = key x ∧ k2 ∈ new x
    · obtain ⟨rfl, hk2⟩ := hx
      right
      rw [cell_extend_of_mem _ hk2]
      exact AList.lookup_isSome.mpr hk2
    · rw [cell_extend_of_not hx]
      rcases h with ⟨y, hy, hkey, hk2⟩ | hd
      · rcases List.mem_cons.mp hy with rfl | hy
        · exact absurd ⟨hkey.symm, hk2⟩ hx
        · exact Or.inl ⟨y, hy, hkey, hk2⟩
      · exact Or.inr hd

end Dict

end Py
